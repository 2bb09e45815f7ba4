import LoxLexer.Proofs.Scan.Composition

/-!
# What stands inside a string

`scan_string_body`: where a string can begin, the text between two quotes, whatever it is, makes one
token, and its line feeds move what stands behind. Nothing else comes of it.

A source that leaves no string open, and would if a quote came behind it, does not end in a comment
(`ne_append_comment_of_isOpen`). So it is cut as before in front of a quote.
-/

namespace LoxLexer

/-- A source ends in no comment if a quote behind it leaves a string open. -/
theorem ne_append_comment_of_isOpen {source : String} (h : (scan source).isOpen = false)
    (hquote : (scan (source ++ "\"")).isOpen = true) (front : List Segment) (body : List Char) :
    Segment.segments source.toList ≠ front ++ [.comment body] := by
  intro hlast
  -- the comment would take in the quote
  have hcut := Segment.segments_append_of_comment hlast ['"']
  have htext : (source ++ "\"").toList = source.toList ++ ['"'] := String.toList_append
  rw [scan_eq_ofSegments, htext, hcut, Scan.isOpen_ofSegments] at hquote
  obtain ⟨value, hv⟩ := hquote
  have hfront : Segment.openString value ∈ front := by simpa using hv
  refine not_mem_segments_of_isOpen h value ?_
  rw [hlast]
  exact List.mem_append_left _ hfront

/-- **String bodies are opaque**: behind a source that leaves neither a string nor a comment open, a
text without quotes between two quotes is scanned to one token, which carries the text, and what
follows is scanned as by itself, on the lines from there. -/
theorem scan_string_body (p v q : String) (hp : (scan p).isOpen = false)
    (hquote : (scan (p ++ "\"")).isOpen = true) (hv : '"' ∉ v.toList) :
    ∃ k, (scan p).tokens = (scan p).body ++ [Token.eof k] ∧
      scan (p ++ "\"" ++ v ++ "\"" ++ q) =
        ⟨(scan p).body ++
            ⟨.string, "\"" ++ v ++ "\"", some (.string v), k + newlines v.toList⟩ ::
              ((scan q).below (k + newlines v.toList - 1)).tokens,
          (scan p).errors ++ ((scan q).below (k + newlines v.toList - 1)).errors⟩ := by
  have hlexical {s : String} : ∀ t ∈ Segment.segments s.toList, t.Lexical :=
    fun _ => Segment.lexical_of_mem_segments
  have htext : (p ++ "\"" ++ v ++ "\"" ++ q).toList =
      p.toList ++ '"' :: (v.toList ++ '"' :: q.toList) := by simp
  have hcut : Segment.segments (p ++ "\"" ++ v ++ "\"" ++ q).toList =
      Segment.segments p.toList ++ .string v.toList :: Segment.segments q.toList := by
    have hstring : Segment.segments ((Segment.string v.toList).text ++ q.toList) =
        .string v.toList :: Segment.segments q.toList := Segment.segments_append (.inl hv) trivial
    rw [htext, Segment.segments_append_of_parts (not_mem_segments_of_isOpen hp)
      (ne_append_comment_of_isOpen hp hquote) Segment.parts_quote, ← hstring]
    simp [Segment.text]
  have hlexeme : String.ofList ('"' :: v.toList ++ ['"']) = "\"" ++ v ++ "\"" := by
    apply String.toList_injective
    simp
  have hq : Scan.ofSegments (1 + newlines p.toList + newlines v.toList)
      (Segment.segments q.toList) = (scan q).below (newlines p.toList + newlines v.toList) := by
    rw [scan_eq_ofSegments, ← Scan.ofSegments_below hlexical, Nat.add_assoc]
  refine ⟨1 + newlines p.toList, ?_, ?_⟩
  · rw [scan_eq_ofSegments, Scan.tokens_ofSegments hlexical, Segment.flatMap_text_segments]
  · rw [scan_eq_ofSegments, hcut, Scan.ofSegments_append hlexical, ← scan_eq_ofSegments,
      Segment.flatMap_text_segments, Scan.ofSegments, hq, hlexeme, String.ofList_toList,
      Nat.add_assoc, Nat.add_sub_cancel_left]
    rfl

/-- A string that holds a comment sign, a backslash and two line feeds, with a stray character and a
point before it and a string left open behind. -/
theorem scan_string_body_touching : (scan "é\n1.").isOpen = false ∧
    (scan ("é\n1." ++ "\"")).isOpen = true ∧ '"' ∉ "// var\n\\\n".toList ∧
    ∃ k, (scan "é\n1.").tokens = (scan "é\n1.").body ++ [Token.eof k] ∧
      scan ("é\n1." ++ "\"" ++ "// var\n\\\n" ++ "\"" ++ "5\n\"") =
        ⟨(scan "é\n1.").body ++
            ⟨.string, "\"" ++ "// var\n\\\n" ++ "\"", some (.string "// var\n\\\n"),
                k + newlines "// var\n\\\n".toList⟩ ::
              ((scan "5\n\"").below (k + newlines "// var\n\\\n".toList - 1)).tokens,
          (scan "é\n1.").errors ++
            ((scan "5\n\"").below (k + newlines "// var\n\\\n".toList - 1)).errors⟩ :=
  have hp : (scan "é\n1.").isOpen = false := by decide +kernel
  have hquote : (scan ("é\n1." ++ "\"")).isOpen = true := by decide +kernel
  have hv : '"' ∉ "// var\n\\\n".toList := by decide
  ⟨hp, hquote, hv, scan_string_body "é\n1." "// var\n\\\n" "5\n\"" hp hquote hv⟩

end LoxLexer
