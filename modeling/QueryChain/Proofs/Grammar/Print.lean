import QueryChain.Proofs.Grammar.Token

/-!
# Printing syntax trees

A tree as a query text, with parentheses only where the tree would be read differently without them: `||` binds
loosest, then `&&`, then the comparisons, which do not associate, then `+` and `-`, then `*` and `/`, and all but
the comparisons associate to the left. Any blanks may stand between the tokens.

* `Syntax.IsWritable`: the trees that a query text can say.
* `Syntax.isProper_of_mem_tokens`: what is printed are tokens of the grammar.
* `Syntax.after_name`, `Syntax.after_opening_name`: nothing but a function begins like the parameters of one.
-/

namespace QueryChain

open Grammar

/-! ## Levels -/

/-- How tightly an operator binds. -/
def BinaryOp.level : BinaryOp → Nat
  | .or => 1
  | .and => 2
  | .eq | .ne | .lt | .le | .gt | .ge => 3
  | .add | .sub => 4
  | .mul | .div => 5

/-- How tightly the left operand of an operator binds at least. -/
def BinaryOp.leftLevel (op : BinaryOp) : Nat :=
  if op.isComparison then op.level + 1 else op.level

/-- How tightly the root of a tree binds. -/
def Syntax.level : Syntax → Nat
  | .binary op _ _ => op.level
  | _ => 6

theorem BinaryOp.level_pos (op : BinaryOp) : 1 ≤ op.level := by
  cases op <;> decide

theorem BinaryOp.level_le (op : BinaryOp) : op.level ≤ 5 := by
  cases op <;> decide

/-! ## Tokens of a tree -/

/-- Parentheses around tokens that need them. -/
def Grammar.enclose (needed : Bool) (ts : List Token) : List Token :=
  if needed then .mark .opening :: (ts ++ [.mark .closing]) else ts

/-- Commas between the members of a list. -/
def Grammar.listed : List (List Token) → List Token
  | [] => []
  | ts :: more => ts ++ more.flatMap fun us => .mark .comma :: us

/-- The parameters of a function; one needs no parentheses. -/
def Grammar.parameterTokens (ps : List String) : List Token :=
  enclose (decide (ps.length ≠ 1)) (listed (ps.map fun p => [.name p]))

/-- A literal; a date is a text after a word. A float has none. -/
def Value.tokens : Value → List Token
  | .null => [.name "null"]
  | .bool b => [.name (if b then "true" else "false")]
  | .int n => [.int n]
  | .text s => [.text s]
  | .dateTime t => [.name "date", .text t.write]
  | .float _ => []

mutual

/-- The tokens of a tree at a place where operators below a level stand in parentheses. -/
def Syntax.tokens : Nat → Syntax → List Token
  | _, .literal v => v.tokens
  | _, .name s => [.name s]
  | _, .member target field => target.tokens 6 ++ [.mark .point, .name field]
  | _, .call target method args =>
    target.tokens 6 ++ .mark .point :: .name method :: .mark .opening ::
      (listed (Syntax.argumentTokens args) ++ [.mark .closing])
  | _, .freeCall method args =>
    .name method :: .mark .opening :: (listed (Syntax.argumentTokens args) ++ [.mark .closing])
  | n, .binary op left right =>
    enclose (decide (op.level < n)) (left.tokens op.leftLevel ++ .op op :: right.tokens (op.level + 1))
  | _, .lambda params body => parameterTokens params ++ .mark .arrow :: body.tokens 1
  | _, .object members =>
    .name "new" :: .mark .openBrace :: (listed (Syntax.memberTokens members) ++ [.mark .closeBrace])

/-- The tokens of each argument. -/
def Syntax.argumentTokens : List Syntax → List (List Token)
  | [] => []
  | arg :: args => arg.tokens 1 :: Syntax.argumentTokens args

/-- The tokens of each member of a new object, `name = value`. -/
def Syntax.memberTokens : List (String × Syntax) → List (List Token)
  | [] => []
  | (label, value) :: members => (.name label :: .mark .equals :: value.tokens 1) :: Syntax.memberTokens members

end

/-- The query text of a tree, with the blanks `gap i` before the token with number `i`. -/
def Syntax.print (gap : Nat → List Char) (t : Syntax) : String :=
  String.ofList (layOut gap 0 (t.tokens 1))

/-! ## Writable trees -/

/-- A name that stands for itself, and is no word of the grammar. -/
def Grammar.IsFreeName (s : String) : Prop :=
  IsName s ∧ s ≠ "true" ∧ s ≠ "false" ∧ s ≠ "null" ∧ s ≠ "new"

/-- A literal that a query text can say exactly. Of moments these are the whole seconds; a leap second that does not
end a minute is no second of its own in a text. -/
def Value.IsWritable : Value → Prop
  | .float _ => False
  | .dateTime t => t.LeapEndsMinute ∧ t.fraction = 0
  | _ => True

mutual

/-- A tree that a query text can say; functions are arguments only. -/
def Syntax.IsWritable (isArgument : Bool) : Syntax → Prop
  | .literal v => v.IsWritable
  | .name s => IsFreeName s
  | .member target field => target.IsWritable false ∧ IsName field
  | .call target method args => target.IsWritable false ∧ IsName method ∧ Syntax.AreWritable args
  | .freeCall method args => IsFreeName method ∧ Syntax.AreWritable args
  | .binary _ left right => left.IsWritable false ∧ right.IsWritable false
  | .lambda params body =>
    isArgument = true ∧ params ≠ [] ∧ (∀ p ∈ params, IsName p) ∧ body.IsWritable false
  | .object members => Syntax.AreWritableMembers members

/-- Arguments that a query text can say. -/
def Syntax.AreWritable : List Syntax → Prop
  | [] => True
  | arg :: args => arg.IsWritable true ∧ Syntax.AreWritable args

/-- Members of a new object that a query text can say. -/
def Syntax.AreWritableMembers : List (String × Syntax) → Prop
  | [] => True
  | (label, value) :: members => IsName label ∧ value.IsWritable false ∧ Syntax.AreWritableMembers members

end

/-! ## What is printed are tokens -/

theorem Grammar.forall_mem_enclose {P : Token → Prop} {needed : Bool} {ts : List Token}
    (hmark : ∀ m, P (.mark m)) (h : ∀ t ∈ ts, P t) : ∀ t ∈ enclose needed ts, P t := by
  intro t ht
  unfold enclose at ht
  split at ht
  · simp only [List.mem_cons, List.mem_append, List.not_mem_nil, or_false] at ht
    rcases ht with rfl | ht | rfl
    · exact hmark _
    · exact h t ht
    · exact hmark _
  · exact h t ht

theorem Grammar.forall_mem_listed {P : Token → Prop} {tss : List (List Token)}
    (hmark : ∀ m, P (.mark m)) (h : ∀ ts ∈ tss, ∀ t ∈ ts, P t) : ∀ t ∈ listed tss, P t := by
  intro t ht
  cases tss with
  | nil => cases ht
  | cons ts more =>
    rcases List.mem_append.1 ht with ht | ht
    · exact h ts List.mem_cons_self t ht
    · obtain ⟨us, hus, ht⟩ := List.mem_flatMap.1 ht
      rcases List.mem_cons.1 ht with rfl | ht
      · exact hmark _
      · exact h us (List.mem_cons_of_mem _ hus) t ht

theorem Grammar.isProper_mark (m : Mark) : (Token.mark m).IsProper := trivial

theorem Grammar.isName_of_decide {s : String} {c : Char} {more : List Char} (h : s.toList = c :: more)
    (hc : startsName c = true) (hmore : more.all continuesName = true) : IsName s :=
  ⟨c, more, h, hc, List.all_eq_true.1 hmore⟩

/-- A list with its closing mark. -/
theorem Grammar.forall_mem_closed {tss : List (List Token)} (close : Mark) (h : ∀ ts ∈ tss, ∀ t ∈ ts, t.IsProper) :
    ∀ t ∈ listed tss ++ [.mark close], t.IsProper :=
  List.forall_mem_append.2 ⟨forall_mem_listed isProper_mark h, List.forall_mem_singleton.2 (isProper_mark close)⟩

/-- The name of a call and its arguments. -/
theorem Grammar.isProper_of_mem_called {method : String} {tss : List (List Token)} (hmethod : IsName method)
    (h : ∀ ts ∈ tss, ∀ t ∈ ts, t.IsProper) :
    ∀ t ∈ .name method :: .mark .opening :: (listed tss ++ [.mark .closing]), t.IsProper :=
  List.forall_mem_cons.2 ⟨hmethod, List.forall_mem_cons.2 ⟨isProper_mark _, forall_mem_closed .closing h⟩⟩

theorem Value.isProper_of_mem_tokens (v : Value) : ∀ t ∈ v.tokens, t.IsProper := by
  have hword : ∀ w ∈ ["null", "true", "false", "date"], IsName w := by
    intro w hw
    simp only [List.mem_cons, List.not_mem_nil, or_false] at hw
    rcases hw with rfl | rfl | rfl | rfl <;> exact isName_of_decide rfl (by decide +kernel) (by decide +kernel)
  intro t ht
  cases v with
  | null => cases List.mem_singleton.1 ht; exact hword _ (by decide)
  | bool b => cases List.mem_singleton.1 ht; cases b <;> exact hword _ (by decide)
  | int n => cases List.mem_singleton.1 ht; trivial
  | float x => cases ht
  | text s => cases List.mem_singleton.1 ht; trivial
  | dateTime m =>
    simp only [Value.tokens, List.mem_cons, List.not_mem_nil, or_false] at ht
    rcases ht with rfl | rfl
    · exact hword _ (by decide)
    · trivial

mutual

/-- All that is printed of a tree are tokens of the grammar. -/
theorem Syntax.isProper_of_mem_tokens (t : Syntax) {isArgument : Bool} (h : t.IsWritable isArgument)
    (n : Nat) : ∀ u ∈ t.tokens n, u.IsProper := by
  cases t with
  | literal v =>
    rw [Syntax.tokens]
    exact v.isProper_of_mem_tokens
  | name s =>
    rw [Syntax.IsWritable] at h
    rw [Syntax.tokens]
    exact List.forall_mem_singleton.2 h.1
  | member target field =>
    rw [Syntax.IsWritable] at h
    have htarget := target.isProper_of_mem_tokens h.1 6
    have hfield : ∀ u ∈ [Token.mark .point, .name field], u.IsProper :=
      List.forall_mem_cons.2 ⟨isProper_mark _, List.forall_mem_singleton.2 h.2⟩
    rw [Syntax.tokens]
    exact List.forall_mem_append.2 ⟨htarget, hfield⟩
  | call target method args =>
    rw [Syntax.IsWritable] at h
    have htarget := target.isProper_of_mem_tokens h.1 6
    have hcall := isProper_of_mem_called h.2.1 (Syntax.isProper_of_mem_argumentTokens args h.2.2)
    rw [Syntax.tokens]
    exact List.forall_mem_append.2 ⟨htarget, List.forall_mem_cons.2 ⟨isProper_mark _, hcall⟩⟩
  | freeCall method args =>
    rw [Syntax.IsWritable] at h
    rw [Syntax.tokens]
    exact isProper_of_mem_called h.1.1 (Syntax.isProper_of_mem_argumentTokens args h.2)
  | binary op left right =>
    rw [Syntax.IsWritable] at h
    have hleft := left.isProper_of_mem_tokens h.1 op.leftLevel
    have hright := right.isProper_of_mem_tokens h.2 (op.level + 1)
    rw [Syntax.tokens]
    apply forall_mem_enclose isProper_mark
    exact List.forall_mem_append.2 ⟨hleft, List.forall_mem_cons.2 ⟨trivial, hright⟩⟩
  | lambda params body =>
    rw [Syntax.IsWritable] at h
    obtain ⟨-, -, hparams, hbody⟩ := h
    have hps : ∀ u ∈ parameterTokens params, u.IsProper := by
      apply forall_mem_enclose isProper_mark
      apply forall_mem_listed isProper_mark
      exact List.forall_mem_map.2 fun p hp => List.forall_mem_singleton.2 (hparams p hp)
    have harrow := List.forall_mem_cons.2 ⟨isProper_mark .arrow, body.isProper_of_mem_tokens hbody 1⟩
    rw [Syntax.tokens]
    exact List.forall_mem_append.2 ⟨hps, harrow⟩
  | object members =>
    rw [Syntax.IsWritable] at h
    have hnew : IsName "new" := isName_of_decide rfl (by decide +kernel) (by decide +kernel)
    have hmembers := forall_mem_closed .closeBrace (Syntax.isProper_of_mem_memberTokens members h)
    rw [Syntax.tokens]
    exact List.forall_mem_cons.2 ⟨hnew, List.forall_mem_cons.2 ⟨isProper_mark _, hmembers⟩⟩

theorem Syntax.isProper_of_mem_argumentTokens (args : List Syntax) (h : Syntax.AreWritable args) :
    ∀ ts ∈ Syntax.argumentTokens args, ∀ u ∈ ts, u.IsProper := by
  cases args with
  | nil => intro ts hts; rw [Syntax.argumentTokens] at hts; cases hts
  | cons arg args =>
    rw [Syntax.AreWritable] at h
    have harg := arg.isProper_of_mem_tokens h.1 1
    have hargs := Syntax.isProper_of_mem_argumentTokens args h.2
    intro ts hts
    rw [Syntax.argumentTokens] at hts
    rcases List.mem_cons.1 hts with rfl | hts
    · exact harg
    · exact hargs ts hts

theorem Syntax.isProper_of_mem_memberTokens (members : List (String × Syntax))
    (h : Syntax.AreWritableMembers members) :
    ∀ ts ∈ Syntax.memberTokens members, ∀ u ∈ ts, u.IsProper := by
  cases members with
  | nil => intro ts hts; rw [Syntax.memberTokens] at hts; cases hts
  | cons member members =>
    obtain ⟨label, value⟩ := member
    rw [Syntax.AreWritableMembers] at h
    have hvalue := value.isProper_of_mem_tokens h.2.1 1
    have hmembers := Syntax.isProper_of_mem_memberTokens members h.2.2
    intro ts hts
    rw [Syntax.memberTokens] at hts
    rcases List.mem_cons.1 hts with rfl | hts
    · exact List.forall_mem_cons.2 ⟨h.1, List.forall_mem_cons.2 ⟨isProper_mark _, hvalue⟩⟩
    · exact hmembers ts hts

end

/-! ## How a tree begins -/

/-- A token that an operand begins with. -/
def Grammar.Token.startsOperand : Token → Bool
  | .name _ | .int _ | .text _ | .mark .opening => true
  | _ => false

/-- A token that goes on with an operand after its first name. -/
def Grammar.Token.prolongs : Token → Bool
  | .op _ | .text _ | .mark .opening | .mark .point | .mark .openBrace => true
  | _ => false

theorem Grammar.enclose_cases (needed : Bool) (ts : List Token) :
    enclose needed ts = .mark .opening :: (ts ++ [.mark .closing]) ∨ enclose needed ts = ts := by
  cases needed
  · exact Or.inr rfl
  · exact Or.inl rfl

/-- A tree that is no function begins with a token of an operand. -/
theorem Syntax.startsOperand_tokens (t : Syntax) (h : t.IsWritable false) (n : Nat) :
    ∃ u us, t.tokens n = u :: us ∧ u.startsOperand = true := by
  cases t with
  | literal v =>
    rw [Syntax.IsWritable] at h
    rw [Syntax.tokens]
    cases v with
    | float x => exact h.elim
    | _ => exact ⟨_, _, rfl, rfl⟩
  | name s => rw [Syntax.tokens]; exact ⟨_, _, rfl, rfl⟩
  | member target field =>
    rw [Syntax.IsWritable] at h
    obtain ⟨u, us, hu, hs⟩ := target.startsOperand_tokens h.1 6
    rw [Syntax.tokens, hu]
    exact ⟨u, _, rfl, hs⟩
  | call target method args =>
    rw [Syntax.IsWritable] at h
    obtain ⟨u, us, hu, hs⟩ := target.startsOperand_tokens h.1 6
    rw [Syntax.tokens, hu]
    exact ⟨u, _, rfl, hs⟩
  | freeCall method args => rw [Syntax.tokens]; exact ⟨_, _, rfl, rfl⟩
  | binary op left right =>
    rw [Syntax.IsWritable] at h
    obtain ⟨u, us, hu, hs⟩ := left.startsOperand_tokens h.1 op.leftLevel
    rw [Syntax.tokens]
    rcases enclose_cases (decide (op.level < n))
      (left.tokens op.leftLevel ++ .op op :: right.tokens (op.level + 1)) with he | he
    · rw [he]
      exact ⟨_, _, rfl, rfl⟩
    · rw [he, hu]
      exact ⟨u, _, rfl, hs⟩
  | lambda params body =>
    rw [Syntax.IsWritable] at h
    cases h.1
  | object members => rw [Syntax.tokens]; exact ⟨_, _, rfl, rfl⟩

/-- After the first name of a tree stands what prolongs an operand, or what follows the tree. -/
theorem Syntax.after_name (t : Syntax) (h : t.IsWritable false) (n : Nat) {ks us : List Token}
    {s : String} {u : Token} (heq : t.tokens n ++ ks = .name s :: u :: us) :
    u.prolongs = true ∨ ∃ vs, ks = u :: vs := by
  cases t with
  | literal v =>
    rw [Syntax.IsWritable] at h
    rw [Syntax.tokens] at heq
    cases v with
    | float x => exact h.elim
    | null => cases heq; exact Or.inr ⟨_, rfl⟩
    | bool b => cases heq; exact Or.inr ⟨_, rfl⟩
    | int i => cases heq
    | text s => cases heq
    | dateTime m => cases heq; exact Or.inl rfl
  | name s =>
    rw [Syntax.tokens] at heq
    cases heq
    exact Or.inr ⟨_, rfl⟩
  | member target field =>
    rw [Syntax.IsWritable] at h
    rw [Syntax.tokens, List.append_assoc] at heq
    rcases target.after_name h.1 6 heq with hu | ⟨vs, hvs⟩
    · exact Or.inl hu
    · cases hvs; exact Or.inl rfl
  | call target method args =>
    rw [Syntax.IsWritable] at h
    rw [Syntax.tokens, List.append_assoc] at heq
    rcases target.after_name h.1 6 heq with hu | ⟨vs, hvs⟩
    · exact Or.inl hu
    · cases hvs; exact Or.inl rfl
  | freeCall method args =>
    rw [Syntax.tokens] at heq
    cases heq
    exact Or.inl rfl
  | binary op left right =>
    rw [Syntax.IsWritable] at h
    rw [Syntax.tokens] at heq
    rcases enclose_cases (decide (op.level < n))
      (left.tokens op.leftLevel ++ .op op :: right.tokens (op.level + 1)) with he | he
    · rw [he] at heq
      cases heq
    · rw [he, List.append_assoc] at heq
      rcases left.after_name h.1 op.leftLevel heq with hu | ⟨vs, hvs⟩
      · exact Or.inl hu
      · cases hvs; exact Or.inl rfl
  | lambda params body =>
    rw [Syntax.IsWritable] at h
    cases h.1
  | object members =>
    rw [Syntax.tokens] at heq
    cases heq
    exact Or.inl rfl

/-- After a parenthesis and a name stands what prolongs an operand: parentheses stand around operators only. -/
theorem Syntax.after_opening_name (t : Syntax) (h : t.IsWritable false) (n : Nat)
    {ks us : List Token} {s : String} {u : Token}
    (heq : t.tokens n ++ ks = .mark .opening :: .name s :: u :: us) : u.prolongs = true := by
  cases t with
  | literal v =>
    rw [Syntax.IsWritable] at h
    rw [Syntax.tokens] at heq
    cases v with
    | float x => exact h.elim
    | _ => cases heq
  | name s => rw [Syntax.tokens] at heq; cases heq
  | member target field =>
    rw [Syntax.IsWritable] at h
    rw [Syntax.tokens, List.append_assoc] at heq
    exact target.after_opening_name h.1 6 heq
  | call target method args =>
    rw [Syntax.IsWritable] at h
    rw [Syntax.tokens, List.append_assoc] at heq
    exact target.after_opening_name h.1 6 heq
  | freeCall method args => rw [Syntax.tokens] at heq; cases heq
  | binary op left right =>
    rw [Syntax.IsWritable] at h
    rw [Syntax.tokens] at heq
    rcases enclose_cases (decide (op.level < n))
      (left.tokens op.leftLevel ++ .op op :: right.tokens (op.level + 1)) with he | he
    · rw [he, List.cons_append, List.cons.injEq, List.append_assoc, List.append_assoc] at heq
      rcases left.after_name h.1 op.leftLevel heq.2 with hu | ⟨vs, hvs⟩
      · exact hu
      · cases hvs; rfl
    · rw [he, List.append_assoc] at heq
      exact left.after_opening_name h.1 op.leftLevel heq
  | lambda params body =>
    rw [Syntax.IsWritable] at h
    cases h.1
  | object members => rw [Syntax.tokens] at heq; cases heq

end QueryChain
