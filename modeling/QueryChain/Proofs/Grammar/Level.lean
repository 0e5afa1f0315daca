import Mathlib.Tactic.IntervalCases
import QueryChain.Proofs.Grammar.Take

/-!
# The levels of the grammar

The grammar reads operators level by level, the loosest first. `ReadsBackAt n t` says that the reader of level `n`
takes the tokens of `t` off the front of a text, whatever may follow an expression of this level.

* `readsBackAt_pred`: a tree that is read back at a level is read back at the one below.
* `chainsAt_binary`, `readsBackAt_comparison`: a binary tree is read back at the level of its operator.
-/

namespace QueryChain.Grammar

open Reader

/-! ## Readers of the levels -/

/-- The operators of a level. -/
def levelOperator : Nat → Reader BinaryOp
  | 1 => operatorWord .or "||"
  | 2 => operatorWord .and "&&"
  | 3 => comparisonOperator
  | 4 => (operatorChar .add '+').orElse (operatorChar .sub '-')
  | _ => (operatorChar .mul '*').orElse (operatorChar .div '/')

/-- The expressions of a level, given a reader for the expressions nested in them. -/
def levelReader (nested : Reader Syntax) : Nat → Reader Syntax
  | 1 => disjunction (operand nested)
  | 2 => conjunction (operand nested)
  | 3 => comparison (operand nested)
  | 4 => sum (operand nested)
  | 5 => product (operand nested)
  | _ => operand nested

/-- An operator and its right operand. -/
def link (operator : Reader BinaryOp) (operand : Reader Syntax) : Reader (BinaryOp × Syntax) := do
  let op ← spaced operator
  let right ← operand
  pure (op, right)

theorem expression_succ (d : Nat) : expression (d + 1) = levelReader (expression d) 1 := rfl

/-- At all levels but that of the comparisons operands are joined from the left. -/
theorem levelReader_eq_chainOf (nested : Reader Syntax) {n : Nat} (hn : n = 1 ∨ n = 2 ∨ n = 4 ∨ n = 5) :
    levelReader nested n = chainOf (levelOperator n) (levelReader nested (n + 1)) := by
  rcases hn with rfl | rfl | rfl | rfl <;> rfl

theorem misses_levelReader {nested : Reader Syntax} {cs : List Char} (h : Misses (primary nested) cs)
    (n : Nat) : Misses (levelReader nested n) cs := by
  have hoperand : Misses (operand nested) cs := by
    obtain ⟨rest, e, h⟩ := h
    exact ⟨rest, e, by rw [operand, h]⟩
  have hproduct : Misses (product (operand nested)) cs := hoperand.bind
  have hsum : Misses (sum (operand nested)) cs := hproduct.bind
  have hcomparison : Misses (comparison (operand nested)) cs := hsum.bind
  have hconjunction : Misses (conjunction (operand nested)) cs := hcomparison.bind
  unfold levelReader
  split
  · exact hconjunction.bind
  · exact hconjunction
  · exact hcomparison
  · exact hsum
  · exact hproduct
  · exact hoperand

/-! ## Operators -/

/-- These tokens begin like an operand. -/
def StartsOperand (ts : List Token) : Prop :=
  ∃ u us, ts = u :: us ∧ u.startsOperand = true

theorem StartsOperand.append {ts : List Token} (h : StartsOperand ts) (ks : List Token) :
    StartsOperand (ts ++ ks) := by
  obtain ⟨u, us, rfl, hu⟩ := h
  exact ⟨u, us ++ ks, rfl, hu⟩

theorem StartsOperand.notFirst_equals {ts : List Token} (h : StartsOperand ts) : NotFirst '=' ts := by
  apply notFirst_of_startsOperand <;> try decide
  intro t us heq
  obtain ⟨u, vs, rfl, hu⟩ := h
  cases heq
  exact hu

/-- An operator is read where no equals sign follows; `<` is not taken for `<=`. -/
theorem levelOperator_append (o : BinaryOp) {rest : List Char} (hne : ∀ more, rest ≠ '=' :: more) :
    levelOperator o.level (o.token.toList ++ rest) = .read o rest := by
  have hword : ∀ c : Char, dropWord [c, '='] (c :: rest) = none := by
    intro c
    cases rest with
    | nil => simp [dropWord]
    | cons d more =>
      have hd : '=' ≠ d := by rintro rfl; exact hne more rfl
      simp [dropWord, hd]
  cases o with
  | lt =>
    have hle : Misses (operatorWord .le "<=") ('<' :: rest) := by
      refine Misses.bind ⟨'<' :: rest, .tag, ?_⟩
      rw [word, show "<=".toList = ['<', '='] from rfl, hword '<']
    show comparisonOperator ('<' :: rest) = .read .lt rest
    rw [comparisonOperator, orElse_of_miss (e := .tag) rfl, orElse_of_miss (e := .tag) rfl, hle.orElse_eq,
      orElse_of_miss (e := .tag) rfl]
    rfl
  | gt =>
    have hge : Misses (operatorWord .ge ">=") ('>' :: rest) := by
      refine Misses.bind ⟨'>' :: rest, .tag, ?_⟩
      rw [word, show ">=".toList = ['>', '='] from rfl, hword '>']
    show comparisonOperator ('>' :: rest) = .read .gt rest
    rw [comparisonOperator, orElse_of_miss (e := .tag) rfl, orElse_of_miss (e := .tag) rfl,
      orElse_of_miss (e := .tag) rfl, hge.orElse_eq]
    rfl
  | _ => rfl

/-- An operator is read before an operand. -/
theorem takes_operator (o : BinaryOp) {ks : List Token} (hks : StartsOperand ks) (d : Nat) :
    Takes (spaced (levelOperator o.level)) o [.op o] ks d :=
  takes_spaced_token fun _ _ hrest => levelOperator_append o (hrest.first_ne hks.notFirst_equals (by decide))

/-- No operator of a level is read off what may follow an expression of the level. -/
theorem misses_operator {n : Nat} (hn : 1 ≤ n) (hn' : n ≤ 5) {ks : List Token} (hks : Follow n ks)
    {cs : List Char} (h : Shows ks cs) : Misses (spaced (levelOperator n)) cs := by
  apply misses_spaced h
  intro cs h
  cases ks with
  | nil =>
    rw [Spells] at h
    subst h
    interval_cases n <;> exact ⟨_, _, rfl⟩
  | cons k us =>
    obtain ⟨-, rest, rfl, -⟩ := h.cons
    have hk := (hks k us rfl).1
    cases k with
    | name s => cases hk
    | int i => cases hk
    | text s => cases hk
    | op o =>
      have hlt : o.level < n := of_decide_eq_true hk
      interval_cases n <;> cases o <;> first | (exact absurd hlt (by decide)) | exact ⟨_, _, rfl⟩
    | mark m =>
      cases m with
      | closing => interval_cases n <;> exact ⟨_, _, rfl⟩
      | comma => interval_cases n <;> exact ⟨_, _, rfl⟩
      | closeBrace => interval_cases n <;> exact ⟨_, _, rfl⟩
      | point =>
        have : 6 < n := of_decide_eq_true hk
        omega
      | _ => cases hk

/-! ## Going down the levels -/

/-- The reader of a level takes the tokens of a tree. -/
def ReadsBackAt (n : Nat) (t : Syntax) : Prop :=
  ∀ d ks, Follow n ks → Takes (levelReader (expression d) n) t (t.tokens n) ks d

/-- A tree is read at a level as a first operand and the operators after it with their operands. -/
def ChainsAt (n : Nat) (t : Syntax) : Prop :=
  ∀ d ks cs, Follow (n + 1) ks → cs.length ≤ d → Shows (t.tokens n ++ ks) cs →
    ∃ first links mid rest, levelReader (expression d) (n + 1) cs = .read first mid ∧
      ReadsOn (link (levelOperator n) (levelReader (expression d) (n + 1))) links mid rest ∧
      first.chain links = t ∧ Spells ks rest ∧ rest.length < cs.length

theorem chain_snoc (first right : Syntax) (links : List (BinaryOp × Syntax)) (op : BinaryOp) :
    first.chain (links ++ [(op, right)]) = .binary op (first.chain links) right := by
  simp [Syntax.chain, List.foldl_append]

theorem misses_link {n : Nat} (hn : 1 ≤ n) (hn' : n ≤ 5) {ks : List Token} (hks : Follow n ks)
    {cs : List Char} (h : Shows ks cs) (operand : Reader Syntax) :
    Misses (link (levelOperator n) operand) cs :=
  (misses_operator hn hn' hks h).bind

theorem link_of_read {operator : Reader BinaryOp} {operand : Reader Syntax} {op : BinaryOp}
    {right : Syntax} {cs mid rest : List Char} (hop : spaced operator cs = .read op mid)
    (hright : operand mid = .read right rest) : link operator operand cs = .read (op, right) rest := by
  rw [link, bind_of_read hop, bind_of_read hright, pure_apply]

/-- A tree that reads as a chain is read back: the chain ends where no operator of the level follows. -/
theorem readsBackAt_of_chainsAt {n : Nat} (hn : n = 1 ∨ n = 2 ∨ n = 4 ∨ n = 5) {t : Syntax}
    (h : ChainsAt n t) : ReadsBackAt n t := by
  intro d ks hks cs hd hcs
  obtain ⟨first, links, mid, rest, hfirst, hlinks, rfl, hrest, hlt⟩ :=
    h d ks cs (hks.mono (Nat.le_succ n)) hd hcs
  obtain ⟨after, e, hend⟩ := misses_link (by omega : 1 ≤ n) (by omega) hks hrest.shows
    (levelReader (expression d) (n + 1))
  refine ⟨rest, ?_, hrest, hlt⟩
  have hmany := many_of_readsOn hlinks hend
  unfold link at hmany
  rw [levelReader_eq_chainOf _ hn, chainOf, bind_of_read hfirst, bind_of_read hmany, pure_apply]

/-- A tree that is read back one level above is a chain of one operand. -/
theorem chainsAt_of_readsBackAt {n : Nat} {t : Syntax} (htokens : t.tokens n = t.tokens (n + 1))
    (h : ReadsBackAt (n + 1) t) : ChainsAt n t := by
  intro d ks cs hks hd hcs
  rw [htokens] at hcs
  obtain ⟨rest, hread, hrest, hlt⟩ := h d ks hks cs hd hcs
  exact ⟨t, [], rest, rest, hread, rfl, rfl, hrest, hlt⟩

/-- A comparison level reads what the level above reads where no comparison follows. -/
theorem readsBackAt_three {t : Syntax} (htokens : t.tokens 3 = t.tokens 4) (h : ReadsBackAt 4 t) :
    ReadsBackAt 3 t := by
  intro d ks hks cs hd hcs
  rw [htokens] at hcs
  obtain ⟨rest, hread, hrest, hlt⟩ := h d ks (hks.mono (by decide)) cs hd hcs
  have hend := misses_link (by decide : 1 ≤ 3) (by decide) hks hrest.shows (sum (operand (expression d)))
  refine ⟨rest, ?_, hrest, hlt⟩
  have hnone := hend.optional_eq
  unfold link at hnone
  show comparison (operand (expression d)) cs = .read t rest
  rw [comparison, bind_of_read (show sum (operand (expression d)) cs = .read t rest from hread)]
  exact bind_of_read hnone

/-- A tree that is printed alike at two neighbouring levels is read back at the lower one. -/
theorem readsBackAt_pred {n : Nat} (hn : 1 ≤ n) (hn' : n ≤ 5) {t : Syntax}
    (htokens : t.tokens n = t.tokens (n + 1)) (h : ReadsBackAt (n + 1) t) : ReadsBackAt n t := by
  by_cases h3 : n = 3
  · subst h3
    exact readsBackAt_three htokens h
  · exact readsBackAt_of_chainsAt (by omega) (chainsAt_of_readsBackAt htokens h)

/-! ## Binary trees -/

theorem tokens_binary (op : BinaryOp) (left right : Syntax) {n : Nat} (hn : n ≤ op.level) :
    (Syntax.binary op left right).tokens n =
      left.tokens op.leftLevel ++ .op op :: right.tokens (op.level + 1) := by
  rw [Syntax.tokens, decide_eq_false (by omega), enclose]
  rfl

theorem tokens_binary_enclosed (op : BinaryOp) (left right : Syntax) {n : Nat} (hn : op.level < n) :
    (Syntax.binary op left right).tokens n =
      .mark .opening :: ((Syntax.binary op left right).tokens 1 ++ [.mark .closing]) := by
  rw [tokens_binary op left right op.level_pos, Syntax.tokens, decide_eq_true hn, enclose]
  rfl

/-- An operator of a level goes on with the chain of its left operand. -/
theorem chainsAt_binary {op : BinaryOp} (hop : op.isComparison = false) {left right : Syntax}
    (hleft : ChainsAt op.level left) (hright : ReadsBackAt (op.level + 1) right)
    (hstart : StartsOperand (right.tokens (op.level + 1))) :
    ChainsAt op.level (.binary op left right) := by
  intro d ks cs hks hd hcs
  have hlevel : op.leftLevel = op.level := by rw [BinaryOp.leftLevel, hop]; rfl
  rw [tokens_binary op left right (Nat.le_refl _), hlevel, List.append_assoc, List.cons_append] at hcs
  obtain ⟨first, links, mid, rest, hfirst, hlinks, rfl, hrest, hlt⟩ :=
    hleft d _ cs (follow_op (Nat.lt_succ_self _) _) hd hcs
  obtain ⟨after, hread, hafter, hlt'⟩ :=
    takes_operator op (hstart.append ks) d rest (by omega) hrest.shows
  obtain ⟨last, hoperand, hlast, hlt''⟩ := hright d ks hks after (by omega) hafter.shows
  refine ⟨first, links ++ [(op, right)], mid, last, hfirst, ?_, chain_snoc _ _ _ _, hlast, by omega⟩
  exact hlinks.snoc (link_of_read hread hoperand) (by omega)

/-- Two sums are compared. -/
theorem readsBackAt_comparison {op : BinaryOp} (hop : op.level = 3) {left right : Syntax}
    (hleft : ReadsBackAt 4 left) (hright : ReadsBackAt 4 right)
    (hstart : StartsOperand (right.tokens 4)) : ReadsBackAt 3 (.binary op left right) := by
  intro d ks hks cs hd hcs
  have hlevel : op.leftLevel = 4 := by cases op <;> first | rfl | cases hop
  rw [tokens_binary op left right (by omega), hlevel, hop, List.append_assoc, List.cons_append] at hcs
  obtain ⟨rest, hread, hrest, hlt⟩ := hleft d _ (follow_op (by omega) _) cs hd hcs
  obtain ⟨after, hop', hafter, hlt'⟩ :=
    takes_operator op (hstart.append ks) d rest (by omega) hrest.shows
  obtain ⟨last, hoperand, hlast, hlt''⟩ :=
    hright d ks (hks.mono (by decide)) after (by omega) hafter.shows
  rw [hop] at hop'
  refine ⟨last, ?_, hlast, by omega⟩
  have htail := link_of_read hop' hoperand
  have hsome : (link (levelOperator 3) (levelReader (expression d) 4)).optional rest =
      .read (some (op, right)) last := by
    rw [Reader.optional, htail]
  unfold link at hsome
  show comparison (operand (expression d)) cs = .read (.binary op left right) last
  rw [comparison, bind_of_read (show sum (operand (expression d)) cs = .read left rest from hread)]
  exact bind_of_read hsome

end QueryChain.Grammar
