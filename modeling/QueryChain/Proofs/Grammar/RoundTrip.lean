import QueryChain.Proofs.Grammar.Operand

/-!
# Reading what was printed

The grammar reads a printed tree back, whatever blanks stand between its tokens. The induction is on the tree: at
every level of the grammar the tokens of a tree are taken off the front of a text, and a tree with members and calls
is reached from the operand before them.

* `Syntax.isReadBack`: every level reads a writable tree back.
* `Syntax.ofText_print`: reading a printed tree gives the tree.
-/

namespace QueryChain.Grammar

open Reader Calendar

/-! ## Members and calls -/

/-- Reading an operand and then its members and calls one by one comes to this tree. -/
def Reaches (t : Syntax) : Prop :=
  ∀ d ks cs, Follow 7 ks → cs.length ≤ d → Shows (t.tokens 6 ++ ks) cs →
    ∃ first mid rest, primary (expression d) cs = .read first mid ∧ Spells ks rest ∧
      rest.length < cs.length ∧
      ∀ fuel, mid.length ≤ fuel → ∃ less, rest.length ≤ less ∧
        membersFrom (expression d) fuel first mid = membersFrom (expression d) less t rest

/-- An operand before its members is reached at once. -/
theorem reaches_of_takes {t : Syntax}
    (h : ∀ d ks, Follow 7 ks → Takes (primary (expression d)) t (t.tokens 6) ks d) : Reaches t := by
  intro d ks cs hks hd hcs
  obtain ⟨rest, hread, hrest, hlt⟩ := h d ks hks cs hd hcs
  exact ⟨t, rest, rest, hread, hrest, hlt, fun fuel hfuel => ⟨fuel, hfuel, rfl⟩⟩

/-- A point and a name are read for a member. -/
theorem memberName_of_spells {s : String} {ks : List Token} (hks : EndsName ks) {cs : List Char}
    (h : Spells (.mark .point :: .name s :: ks) cs) :
    ∃ rest, memberName cs = .read s rest ∧ Spells ks rest ∧ rest.length < cs.length := by
  obtain ⟨-, mid, heq, hmid, hlt⟩ := h.cons
  obtain ⟨rest, hread, hrest, hlt'⟩ := takes_identifier hks mid.length mid (Nat.le_refl _) hmid
  have hspaces : spaces cs = .read () (Token.chars (.mark .point) ++ mid) := by
    rw [← heq, spaces, h.dropWhile_eq]
  have hpoint : char '.' (Token.chars (.mark .point) ++ mid) = .read () mid := rfl
  exact ⟨rest, by rw [memberName, bind_of_read hspaces, bind_of_read hpoint, hread], hrest, by omega⟩

/-- Where no point follows, no member is read. -/
theorem misses_memberName {ks : List Token} (hks : Follow 6 ks) {cs : List Char} (h : Spells ks cs) :
    Misses memberName cs := by
  have hpoint : NotFirst '.' ks := by
    intro k us hk _ more hmore
    have hf := (hks k us hk).1
    cases k with
    | name s => cases hf
    | int i => cases hf
    | text s => cases hf
    | op o => cases o <;> cases hmore
    | mark m => cases m <;> cases hmore; cases hf
  obtain ⟨rest, e, hchar⟩ := misses_char h hpoint
  have hspaces : spaces cs = .read () cs := by rw [spaces, h.dropWhile_eq]
  exact ⟨rest, e, by rw [memberName, bind_of_read hspaces]; exact bind_of_miss hchar⟩

theorem reaches_member {target : Syntax} (h : Reaches target) (field : String) :
    Reaches (.member target field) := by
  intro d ks cs hks hd hcs
  rw [Syntax.tokens, List.append_assoc] at hcs
  obtain ⟨first, mid, rest, hfirst, hrest, hlt, hreach⟩ :=
    h d _ cs (follow_point (s := field) ks) hd hcs
  obtain ⟨last, hname, hlast, hlt'⟩ := memberName_of_spells hks.endsName hrest
  refine ⟨first, mid, last, hfirst, hlast, by omega, ?_⟩
  intro fuel hfuel
  obtain ⟨less, hless, heq⟩ := hreach fuel hfuel
  cases less with
  | zero => omega
  | succ less =>
    refine ⟨less, by omega, ?_⟩
    have hspaces : spaces last = .read () last := by rw [spaces, hlast.dropWhile_eq]
    obtain ⟨after, e, hopen⟩ := misses_char hlast (hks.notFirst (Or.inl rfl))
    have hargs : arguments (expression d) last = .miss after e := by
      rw [arguments, bind_of_read hspaces]
      exact bind_of_miss hopen
    rw [heq, membersFrom, hname]
    simp only [hargs]

theorem reaches_call {target : Syntax} (h : Reaches target) (method : String) {args : List Syntax}
    (hargs : ArgumentsReadBack args) : Reaches (.call target method args) := by
  intro d ks cs hks hd hcs
  rw [Syntax.tokens, List.append_assoc, List.cons_append, List.cons_append] at hcs
  obtain ⟨first, mid, rest, hfirst, hrest, hlt, hreach⟩ :=
    h d _ cs (follow_point (s := method) _) hd hcs
  have hends : EndsName (.mark .opening :: (listed (Syntax.argumentTokens args) ++ [.mark .closing]) ++ ks) := by
    intro t us heq
    cases heq
    rfl
  obtain ⟨after, hname, hafter, hlt'⟩ := memberName_of_spells hends hrest
  obtain ⟨last, hread, hlast, hlt''⟩ := takes_arguments hargs ks d after (by omega) hafter.shows
  refine ⟨first, mid, last, hfirst, hlast, by omega, ?_⟩
  intro fuel hfuel
  obtain ⟨less, hless, heq⟩ := hreach fuel hfuel
  cases less with
  | zero => omega
  | succ less =>
    refine ⟨less, by omega, ?_⟩
    rw [heq, membersFrom, hname]
    simp only [hread]

/-- A tree that is reached is read back as an operand: no point follows it. -/
theorem readsBackAt_of_reaches {t : Syntax} (h : Reaches t) : ReadsBackAt 6 t := by
  intro d ks hks cs hd hcs
  obtain ⟨first, mid, rest, hfirst, hrest, hlt, hreach⟩ := h d ks cs (hks.mono (by decide)) hd hcs
  obtain ⟨less, -, heq⟩ := hreach mid.length (Nat.le_refl _)
  obtain ⟨after, e, hend⟩ := misses_memberName hks hrest
  refine ⟨rest, ?_, hrest, hlt⟩
  show operand (expression d) cs = .read t rest
  rw [operand, hfirst]
  simp only [heq]
  cases less with
  | zero => rfl
  | succ less => rw [membersFrom, hend]

/-! ## All levels -/

/-- A tree is read back at all levels, as a chain where operands are joined from the left, and as an operand. -/
structure ReadsBack (t : Syntax) : Prop where
  at_level : ∀ n, 1 ≤ n → n ≤ 6 → ReadsBackAt n t
  chains : ∀ n, n = 1 ∨ n = 2 ∨ n = 4 ∨ n = 5 → ChainsAt n t
  reaches : Reaches t

/-- What is read back at a level is read back at those below, down to one where it is printed differently. -/
theorem readsBackAt_below {t : Syntax} {m n : Nat} (hmn : m ≤ n) (hm : 1 ≤ m) (hn : n ≤ 6)
    (htokens : ∀ k, m ≤ k → k ≤ n → t.tokens k = t.tokens n) (h : ReadsBackAt n t) : ReadsBackAt m t := by
  induction n, hmn using Nat.le_induction with
  | base => exact h
  | succ n hmn ih =>
    have hstep : t.tokens n = t.tokens (n + 1) := htokens n hmn (Nat.le_succ n)
    refine ih (by omega) ?_ (readsBackAt_pred (by omega) (by omega) hstep h)
    intro k hmk hkn
    rw [htokens k hmk (by omega), hstep]

/-- A tree that is no operator is read back once it is reached. -/
theorem readsBack_of_reaches {t : Syntax} (htokens : ∀ n, t.tokens n = t.tokens 6) (h : Reaches t) :
    ReadsBack t := by
  have hall : ∀ n, 1 ≤ n → n ≤ 6 → ReadsBackAt n t := fun n hn hn' =>
    readsBackAt_below hn' hn (Nat.le_refl _) (fun k _ _ => htokens k) (readsBackAt_of_reaches h)
  refine ⟨hall, ?_, h⟩
  intro n hn
  apply chainsAt_of_readsBackAt
  · rw [htokens n, htokens (n + 1)]
  · exact hall (n + 1) (by omega) (by omega)

/-- An operator is read back at its own level, below it, and above it in parentheses. -/
theorem readsBack_binary {op : BinaryOp} {left right : Syntax} (hleft : ReadsBack left)
    (hright : ReadsBack right) (hstart : ∀ n, StartsOperand (right.tokens n)) :
    ReadsBack (.binary op left right) := by
  have hpos := op.level_pos
  have hle := op.level_le
  have hchain : op.isComparison = false → ChainsAt op.level (.binary op left right) := by
    intro hop
    have hlevel : op.level = 1 ∨ op.level = 2 ∨ op.level = 4 ∨ op.level = 5 := by
      cases op <;> first | decide | cases hop
    exact chainsAt_binary hop (hleft.chains _ hlevel) (hright.at_level _ (by omega) (by omega)) (hstart _)
  have hown : ReadsBackAt op.level (.binary op left right) := by
    cases hop : op.isComparison with
    | true =>
      have hlevel : op.level = 3 := by cases op <;> first | rfl | cases hop
      rw [hlevel]
      exact readsBackAt_comparison hlevel (hleft.at_level 4 (by decide) (by decide))
        (hright.at_level 4 (by decide) (by decide)) (hstart 4)
    | false =>
      have hlevel : op.level = 1 ∨ op.level = 2 ∨ op.level = 4 ∨ op.level = 5 := by
        cases op <;> first | decide | cases hop
      exact readsBackAt_of_chainsAt hlevel (hchain hop)
  have hbelow : ∀ n, 1 ≤ n → n ≤ op.level → ReadsBackAt n (.binary op left right) := by
    intro n hn hn'
    refine readsBackAt_below hn' hn (by omega) ?_ hown
    intro k _ hk
    rw [tokens_binary op left right hk, tokens_binary op left right (Nat.le_refl _)]
  have hreaches : Reaches (.binary op left right) := by
    apply reaches_of_takes
    intro d ks _
    rw [tokens_binary_enclosed op left right (by omega)]
    exact takes_parenthesized (hbelow 1 (Nat.le_refl _) hpos) ks d
  have habove : ∀ n, op.level < n → n ≤ 6 → ReadsBackAt n (.binary op left right) := by
    intro n hn hn'
    refine readsBackAt_below hn' (by omega) (Nat.le_refl _) ?_ (readsBackAt_of_reaches hreaches)
    intro k hk _
    rw [tokens_binary_enclosed op left right (by omega : op.level < k),
      tokens_binary_enclosed op left right (by omega : op.level < 6)]
  have hall : ∀ n, 1 ≤ n → n ≤ 6 → ReadsBackAt n (.binary op left right) := by
    intro n hn hn'
    by_cases h : n ≤ op.level
    · exact hbelow n hn h
    · exact habove n (by omega) hn'
  refine ⟨hall, ?_, hreaches⟩
  intro n hn
  by_cases heq : n = op.level
  · subst heq
    exact hchain (by cases op <;> first | rfl | (exact absurd hn (by decide)))
  · apply chainsAt_of_readsBackAt _ (hall (n + 1) (by omega) (by omega))
    by_cases h : n < op.level
    · rw [tokens_binary op left right (by omega : n ≤ op.level),
        tokens_binary op left right (by omega : n + 1 ≤ op.level)]
    · rw [tokens_binary_enclosed op left right (by omega : op.level < n),
        tokens_binary_enclosed op left right (by omega : op.level < n + 1)]

end QueryChain.Grammar

namespace QueryChain

open Grammar

theorem Value.takes_tokens {v : Value} (h : v.IsWritable) {ks : List Token} (hks : Follow 7 ks)
    (e : Reader Syntax) (d : Nat) : Takes (primary e) (.literal v) v.tokens ks d := by
  cases v with
  | null => exact takes_literalWord (Or.inl rfl) hks e d
  | bool b => exact takes_literalWord (Or.inr ⟨b, rfl⟩) hks e d
  | int n => exact takes_int hks e d
  | float x => exact h.elim
  | text s => exact takes_text hks e d
  | dateTime t => exact takes_date h hks e d

/-- A tree is read back where it is an expression, and where it is an argument. -/
def Syntax.IsReadBack (t : Syntax) : Prop :=
  (t.IsWritable false → ReadsBack t) ∧
    (t.IsWritable true → ∀ d ks, Follow 1 ks →
      Takes ((Grammar.lambda (expression (d + 1))).orElse (expression (d + 1))) t (t.tokens 1) ks d)

/-- What is no function is an argument as it is an expression. -/
theorem Syntax.isReadBack_of_readsBack {t : Syntax} (hne : ∀ params body, t ≠ .lambda params body)
    (h : t.IsWritable false → ReadsBack t) : t.IsReadBack := by
  refine ⟨h, ?_⟩
  intro hw d ks hks
  have hw : t.IsWritable false := by
    cases t with
    | lambda params body => exact absurd rfl (hne params body)
    | _ => simpa only [Syntax.IsWritable] using hw
  exact takes_argument hw ((h hw).at_level 1 (by decide) (by decide)) hks d

mutual

/-- Every level of the grammar reads a writable tree back. -/
theorem Syntax.isReadBack (t : Syntax) : t.IsReadBack := by
  cases t with
  | literal v =>
    refine Syntax.isReadBack_of_readsBack (by rintro params body ⟨⟩) fun h => ?_
    rw [Syntax.IsWritable] at h
    refine readsBack_of_reaches (fun n => by rw [Syntax.tokens, Syntax.tokens]) (reaches_of_takes ?_)
    intro d ks hks
    rw [Syntax.tokens]
    exact Value.takes_tokens h hks _ d
  | name s =>
    refine Syntax.isReadBack_of_readsBack (by rintro params body ⟨⟩) fun h => ?_
    rw [Syntax.IsWritable] at h
    refine readsBack_of_reaches (fun n => by rw [Syntax.tokens, Syntax.tokens]) (reaches_of_takes ?_)
    intro d ks hks
    rw [Syntax.tokens]
    exact takes_name h hks _ d
  | member target field =>
    have htarget := target.isReadBack.1
    refine Syntax.isReadBack_of_readsBack (by rintro params body ⟨⟩) fun h => ?_
    rw [Syntax.IsWritable] at h
    exact readsBack_of_reaches (fun n => by rw [Syntax.tokens, Syntax.tokens])
      (reaches_member (htarget h.1).reaches field)
  | call target method args =>
    have htarget := target.isReadBack.1
    have hargs := Syntax.argumentsReadBack args
    refine Syntax.isReadBack_of_readsBack (by rintro params body ⟨⟩) fun h => ?_
    rw [Syntax.IsWritable] at h
    exact readsBack_of_reaches (fun n => by rw [Syntax.tokens, Syntax.tokens])
      (reaches_call (htarget h.1).reaches method (hargs h.2.2))
  | freeCall method args =>
    have hargs := Syntax.argumentsReadBack args
    refine Syntax.isReadBack_of_readsBack (by rintro params body ⟨⟩) fun h => ?_
    rw [Syntax.IsWritable] at h
    exact readsBack_of_reaches (fun n => by rw [Syntax.tokens, Syntax.tokens])
      (reaches_of_takes fun d ks _ => takes_freeCall h.1 (hargs h.2) ks d)
  | binary op left right =>
    have hleft := left.isReadBack.1
    have hright := right.isReadBack.1
    refine Syntax.isReadBack_of_readsBack (by rintro params body ⟨⟩) fun h => ?_
    rw [Syntax.IsWritable] at h
    exact readsBack_binary (hleft h.1) (hright h.2) fun n => right.startsOperand_tokens h.2 n
  | lambda params body =>
    have hbody := body.isReadBack.1
    constructor
    · intro h
      rw [Syntax.IsWritable] at h
      cases h.1
    · intro h d ks hks
      rw [Syntax.IsWritable] at h
      obtain ⟨-, hne, -, hb⟩ := h
      exact takes_lambda hne ((hbody hb).at_level 1 (by decide) (by decide)) hks d
  | object members =>
    have hmembers := Syntax.membersReadBack members
    refine Syntax.isReadBack_of_readsBack (by rintro params body ⟨⟩) fun h => ?_
    rw [Syntax.IsWritable] at h
    exact readsBack_of_reaches (fun n => by rw [Syntax.tokens, Syntax.tokens])
      (reaches_of_takes fun d ks _ => takes_object (hmembers h) ks d)

theorem Syntax.argumentsReadBack (args : List Syntax) (h : Syntax.AreWritable args) :
    ArgumentsReadBack args := by
  cases args with
  | nil =>
    intro d
    rw [Syntax.argumentTokens]
    exact .nil
  | cons arg args =>
    rw [Syntax.AreWritable] at h
    have harg := arg.isReadBack.2 h.1
    have hargs := Syntax.argumentsReadBack args h.2
    intro d
    rw [Syntax.argumentTokens]
    exact .cons (harg d) (hargs d)

theorem Syntax.membersReadBack (members : List (String × Syntax))
    (h : Syntax.AreWritableMembers members) : MembersReadBack members := by
  cases members with
  | nil =>
    intro d
    rw [Syntax.memberTokens]
    exact .nil
  | cons member members =>
    obtain ⟨label, value⟩ := member
    rw [Syntax.AreWritableMembers] at h
    have hvalue := value.isReadBack.1 h.2.1
    have hmembers := Syntax.membersReadBack members h.2.2
    intro d
    rw [Syntax.memberTokens]
    refine .cons (fun ks hks => ?_) (hmembers d)
    exact takes_objectMember (hvalue.at_level 1 (by decide) (by decide)) (value.startsOperand_tokens h.2.1 1)
      hks d

end

/-! ## Whole texts -/

/-- Reading a printed tree gives the tree, whatever blanks stand between its tokens. -/
theorem Syntax.ofText_print (t : Syntax) (h : t.IsWritable false) (gap : Nat → List Char)
    (hgap : ∀ i, ∀ c ∈ gap i, Reader.isSpace c = true) : Syntax.ofText (t.print gap) = .ok t := by
  have hspells : Spells (t.tokens 1) (Text.trim (t.print gap).toList) := by
    rw [Syntax.print, String.toList_ofList]
    exact (spells_layOut hgap (t.isProper_of_mem_tokens h 1) 0).trim
  have htakes := (t.isReadBack.1 h).at_level 1 (by decide) (by decide)
  rw [Syntax.ofText]
  generalize Text.trim (t.print gap).toList = cs at hspells
  obtain ⟨rest, hread, hrest, -⟩ := htakes cs.length [] (follow_nil 1) cs (Nat.le_refl _)
    (by rw [List.append_nil]; exact hspells.shows)
  rw [Spells] at hrest
  subst hrest
  have hexpression : expression (cs.length + 1) cs = .read t [] := hread
  rw [Syntax.ofChars, hexpression]

/-- `Customers.Where(c => c.Age * (2 + -1) > 3)`, with blanks between all tokens. -/
theorem Syntax.ofText_print_filter :
    Syntax.ofText ((Syntax.call (.name "Customers") "Where" [.lambda ["c"] (.binary .gt
      (.binary .mul (.member (.name "c") "Age") (.binary .add (.literal (.int 2)) (.literal (.int (-1)))))
      (.literal (.int 3)))]).print fun _ => [' ', '\n']) =
    .ok (.call (.name "Customers") "Where" [.lambda ["c"] (.binary .gt
      (.binary .mul (.member (.name "c") "Age") (.binary .add (.literal (.int 2)) (.literal (.int (-1)))))
      (.literal (.int 3)))]) := by
  have hname : ∀ s ∈ ["Customers", "Where", "c", "Age"], IsName s := by
    intro s hs
    simp only [List.mem_cons, List.not_mem_nil, or_false] at hs
    rcases hs with rfl | rfl | rfl | rfl <;>
      exact isName_of_decide rfl (by decide +kernel) (by decide +kernel)
  apply Syntax.ofText_print
  · simp [Syntax.IsWritable, Syntax.AreWritable, Value.IsWritable, IsFreeName, hname]
  · intro i c hc
    simp only [List.mem_cons, List.not_mem_nil, or_false] at hc
    rcases hc with rfl | rfl <;> rfl

end QueryChain
