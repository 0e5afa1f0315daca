import QueryChain.CommandLine.Explain
import QueryChain.Proofs.Grammar.Position

/-!
# The caret below a refused query

Below a query that cannot be read the command line tool prints the query once more, and a caret below that. As many
blanks stand in front of the caret as there are bytes in front of the fault in the trimmed text. The query is printed
untrimmed, and the columns of a terminal are characters. So the caret stands below the trailing content if the query
does not begin with white space and everything in front of the content is ASCII, and where only one of these fails it
stands elsewhere.

* `Text.exists_blanks_trim`: a text is what is left when it is trimmed, between blanks.
* `CommandLine.Trails`: trailing content and what stands around it.
* `CommandLine.explain_caret`: where the caret stands, and where it should.
-/

namespace QueryChain

/-! ## Blanks, bytes and characters -/

namespace Text

/-- A text is what is left when it is trimmed, between blanks. -/
theorem exists_blanks_trim (cs : List Char) :
    ∃ before after, cs = before ++ trim cs ++ after ∧ (∀ c ∈ before, isBlank c = true) ∧
      ∀ c ∈ after, isBlank c = true := by
  have hstart : cs.takeWhile isBlank ++ trimStart cs = cs := List.takeWhile_append_dropWhile
  have hend : trim cs ++ ((trimStart cs).reverse.takeWhile isBlank).reverse = trimStart cs := by
    rw [trim, trimEnd, ← List.reverse_append, List.takeWhile_append_dropWhile, List.reverse_reverse]
  refine ⟨cs.takeWhile isBlank, ((trimStart cs).reverse.takeWhile isBlank).reverse, ?_, ?_, ?_⟩
  · rw [List.append_assoc, hend, hstart]
  · exact fun c hc => List.mem_takeWhile_imp hc
  · exact fun c hc => List.mem_takeWhile_imp (List.mem_reverse.mp hc)

end Text

namespace Grammar

theorem length_le_byteLength (cs : List Char) : cs.length ≤ byteLength cs := by
  induction cs with
  | nil => exact Nat.le_refl 0
  | cons c cs ih =>
    have := Char.utf8Size_pos c
    rw [List.length_cons, byteLength]
    omega

/-- There are as many bytes as characters if all of these are ASCII. -/
theorem byteLength_eq_length_iff (cs : List Char) : byteLength cs = cs.length ↔ ∀ c ∈ cs, c.val ≤ 127 := by
  induction cs with
  | nil => exact ⟨fun _ => List.forall_mem_nil _, fun _ => rfl⟩
  | cons c cs ih =>
    have hsize := Char.utf8Size_pos c
    have hlength := length_le_byteLength cs
    rw [List.forall_mem_cons, ← ih, ← Char.utf8Size_eq_one_iff, byteLength, List.length_cons]
    omega

end Grammar

namespace CommandLine

open Session Grammar Text

/-! ## The lines -/

/-- The number of characters in front of the caret of a line. -/
def caretColumn (line : String) : Nat :=
  (line.toList.takeWhile (· ≠ '^')).length

theorem caretColumn_blanks (n : Nat) : caretColumn ("  " ++ blanks n ++ "^") = 2 + n := by
  have hline : ("  " ++ blanks n ++ "^").toList = List.replicate (2 + n) ' ' ++ ['^'] := by
    have hblanks : (blanks n).toList = List.replicate n ' ' := String.toList_ofList
    rw [String.toList_append, String.toList_append, hblanks, List.replicate_add]
    rfl
  have hblank : ∀ c ∈ List.replicate (2 + n) ' ', decide (c ≠ '^') = true := by
    intro c hc
    rw [List.eq_of_mem_replicate hc]
    rfl
  rw [caretColumn, hline, List.takeWhile_append_of_pos hblank]
  simp

/-- What is printed about a query that cannot be read. -/
theorem run_explain_of_parse {query : String} {schema : Schema} {position : Nat} {cause : ParseFault}
    (h : Expr.ofText schema query = .error (.parse position cause)) (o : Options) (t : Transcript) :
    ∃ out, ExceptT.run (explain query schema o : Session Id Unit) t =
      (.error (.fault none (.parse position cause)),
        ⟨out, t.err ++ ("  " ++ query) ++ "\n" ++ ("  " ++ blanks position ++ "^") ++ "\n"⟩) := by
  unfold explain
  rw [h]
  exact ⟨_, rfl⟩

/-! ## Trailing content -/

/-- The content that trails in a query, and what stands around it: white space, what has been read, the content, and
white space again. -/
structure Trails (query leading front content trailing : String) : Prop where
  query_eq : query = leading ++ front ++ content ++ trailing
  trimmed : String.ofList (trim query.toList) = front ++ content
  leading : ∀ c ∈ leading.toList, isBlank c = true
  trailing : ∀ c ∈ trailing.toList, isBlank c = true
  content : content ≠ ""

/-- A query whose content trails has such parts, and the position counts the bytes of what has been read. -/
theorem exists_trails {query content : String} {position : Nat}
    (h : Syntax.ofText query = .error (.parse position (.trailing content))) :
    ∃ leading front trailing, Trails query leading front content trailing ∧ position = front.utf8ByteSize := by
  -- the fault speaks of the trimmed text only; the white space around it is that of the query
  obtain ⟨front, rest, cause, htrim, hfault, htrailing⟩ := Syntax.ofChars_error h
  cases hfault
  obtain ⟨rfl, hrest, -⟩ := htrailing content rfl
  obtain ⟨before, after, hquery, hbefore, hafter⟩ := exists_blanks_trim query.toList
  refine ⟨String.ofList before, String.ofList front, String.ofList after, ⟨?_, ?_, ?_, ?_, ?_⟩, ?_⟩
  · rw [← String.toList_inj]
    simpa [htrim] using hquery
  · rw [htrim, String.ofList_append]
  · rwa [String.toList_ofList]
  · rwa [String.toList_ofList]
  · simpa using hrest
  · exact (utf8ByteSize_ofList front).symm

/-- A query whose content trails is printed below the heading, and below it a caret, behind two blanks and as many as
there are bytes in front of the content in the trimmed text. If the query does not begin with white space, the caret
stands below the content exactly if everything in front of it is ASCII; if everything in front of it is ASCII, exactly
if the query does not begin with white space. -/
theorem explain_caret {query content : String} {position : Nat}
    (h : Syntax.ofText query = .error (.parse position (.trailing content))) (schema : Schema) (o : Options)
    (t : Transcript) :
    ∃ leading front trailing caretLine out, Trails query leading front content trailing ∧
      ExceptT.run (explain query schema o : Session Id Unit) t =
        (.error (.fault none (.parse position (.trailing content))),
          ⟨out, t.err ++ ("  " ++ query) ++ "\n" ++ caretLine ++ "\n"⟩) ∧
      caretColumn caretLine = 2 + front.utf8ByteSize ∧
      (leading = "" →
        (caretColumn caretLine = ("  " ++ leading ++ front).length ↔ ∀ c ∈ front.toList, c.val ≤ 127)) ∧
      ((∀ c ∈ front.toList, c.val ≤ 127) →
        (caretColumn caretLine = ("  " ++ leading ++ front).length ↔ leading = "")) := by
  obtain ⟨leading, front, trailing, htrails, rfl⟩ := exists_trails h
  have hparse : Expr.ofText schema query = .error (.parse front.utf8ByteSize (.trailing content)) := by
    rw [Expr.ofText, h]
    rfl
  obtain ⟨out, hrun⟩ := run_explain_of_parse hparse o t
  have hbytes : front.utf8ByteSize = byteLength front.toList := by
    rw [← utf8ByteSize_ofList, String.ofList_toList]
  have hcolumn : ("  " ++ leading ++ front).length = 2 + leading.length + front.length := by
    rw [String.length_append, String.length_append]
    rfl
  have hascii := byteLength_eq_length_iff front.toList
  refine ⟨leading, front, trailing, _, out, htrails, hrun, caretColumn_blanks _, fun hleading => ?_, fun hfront => ?_⟩
  · rw [caretColumn_blanks, hcolumn, ← hascii, hbytes, String.length_toList, hleading]
    simp
  · rw [caretColumn_blanks, hcolumn, hbytes, hascii.mpr hfront, String.length_toList, ← String.length_eq_zero_iff]
    omega

/-- `Customers Orders` has a caret below the second name. -/
theorem explain_caret_names :
    Syntax.ofText "Customers Orders " = .error (.parse 10 (.trailing "Orders")) ∧
      ∃ leading front trailing caretLine out, Trails "Customers Orders " leading front "Orders" trailing ∧
        ExceptT.run (explain "Customers Orders " .empty .standard : Session Id Unit) .empty =
          (.error (.fault none (.parse 10 (.trailing "Orders"))),
            ⟨out, "" ++ ("  " ++ "Customers Orders ") ++ "\n" ++ caretLine ++ "\n"⟩) ∧
        caretColumn caretLine = 2 + front.utf8ByteSize ∧
        (leading = "" →
          (caretColumn caretLine = ("  " ++ leading ++ front).length ↔ ∀ c ∈ front.toList, c.val ≤ 127)) ∧
        ((∀ c ∈ front.toList, c.val ≤ 127) →
          (caretColumn caretLine = ("  " ++ leading ++ front).length ↔ leading = "")) := by
  have htext : Syntax.ofText "Customers Orders " = .error (.parse 10 (.trailing "Orders")) := by cbv
  exact ⟨htext, explain_caret htext .empty .standard .empty⟩

/-- A blank in front moves the content but not the caret, and a letter of two bytes moves the caret too far. -/
theorem caret_misses :
    (Trails " a +" " " "a " "+" "" ∧
      (∃ out, ExceptT.run (explain " a +" .empty .standard : Session Id Unit) .empty =
        (.error (.fault none (.parse 2 (.trailing "+"))), ⟨out, "   a +\n    ^\n"⟩)) ∧
      caretColumn "    ^" = 4 ∧ ("  " ++ " " ++ "a ").length = 5) ∧
    Trails "é +" "" "é " "+" "" ∧
      (∃ out, ExceptT.run (explain "é +" .empty .standard : Session Id Unit) .empty =
        (.error (.fault none (.parse 3 (.trailing "+"))), ⟨out, "  é +\n     ^\n"⟩)) ∧
      caretColumn "     ^" = 5 ∧ ("  " ++ "" ++ "é ").length = 4 := by
  have hblank : Syntax.ofText " a +" = .error (.parse 2 (.trailing "+")) := by cbv
  have haccent : Syntax.ofText "é +" = .error (.parse 3 (.trailing "+")) := by cbv
  have hparse (query : String) {position : Nat} (h : Syntax.ofText query = .error (.parse position (.trailing "+"))) :
      Expr.ofText .empty query = .error (.parse position (.trailing "+")) := by
    rw [Expr.ofText, h]
    rfl
  have hnone : ∀ c ∈ "".toList, isBlank c = true := List.forall_mem_nil _
  have hspace : ∀ c ∈ " ".toList, isBlank c = true := List.forall_mem_singleton.mpr rfl
  refine ⟨⟨⟨by decide, by decide, hspace, hnone, by decide⟩, ?_, by decide, by decide⟩,
    ⟨by decide, by decide, hnone, hnone, by decide⟩, ?_, by decide, by decide⟩
  · exact run_explain_of_parse (hparse " a +" hblank) .standard .empty
  · exact run_explain_of_parse (hparse "é +" haccent) .standard .empty

end CommandLine

end QueryChain
