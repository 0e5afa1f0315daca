import QueryChain.Proofs.Rows.Shape

/-!
# Scalars with and without a declared type

A scalar of a row is read by two conversions, one after the other: the type that the query declares for it decodes
what the driver hands back, and the slot that the caller wants it in reads what came of that. A query that declares
no type leaves all to the slot. The second conversion does what the first did once more, so the declared type is of no
account but for what only it decodes, integers as truth values and texts as moments, and what only the slot widens,
integers as floats.

* `Slot.read_coerce`: a value coerced to the type of a slot is read like the value itself.
* `Cursor.materialize_scalar_declared`: what the declared type of a scalar is of account for.
* `Cursor.not_materialize_scalar_alike`: so a query that declares a type may read a row that another cannot.
-/

namespace QueryChain

open Model (onlyRow)

variable {α β : Type}

/-! ## Outcomes of one kind -/

/-- The same value, or faults of one kind. -/
inductive Alike : Except Fault α → Except Fault α → Prop
  | ok (a : α) : Alike (.ok a) (.ok a)
  | error {f g : Fault} (hkind : f.ctorIdx = g.ctorIdx) : Alike (.error f) (.error g)

namespace Alike

theorem refl (r : Except Fault α) : Alike r r := by
  cases r with
  | ok a => exact .ok a
  | error f => exact .error rfl

theorem of_eq {r r' : Except Fault α} (h : r = r') : Alike r r' := h ▸ refl r

theorem map {r r' : Except Fault α} (h : Alike r r') (f : α → β) : Alike (r.map f) (r'.map f) := by
  cases h with
  | ok a => exact .ok (f a)
  | error hkind => exact .error hkind

theorem not_ok_error {a : α} {f : Fault} : ¬ Alike (.ok a) (.error f) := nofun

end Alike

/-! ## The two conversions -/

/-- What a slot reads in a value that came with a declared type. -/
def Slot.readDeclared (s : Slot) (declared : Option ScalarType) (v : Value) : Except Fault Value := do
  let w ← v.decode declared
  s.read (w.widen s.kind)

/-- Of a row that is read as a scalar, the slot reads the value at its start. -/
theorem Cursor.materialize_scalar (c : Cursor) (declared : Option ScalarType) (name : String) (s : Slot) :
    c.materialize (.scalar declared) ⟨name, .slot s⟩ = (s.readDeclared declared (c.value 0)).map .scalar := by
  simp only [materialize, readAt, Slot.readDeclared]
  cases (c.value 0).decode declared with
  | error fault => rfl
  | ok w =>
    show (s.read (w.widen s.kind) >>= fun w => pure (.scalar w)) = (s.read (w.widen s.kind)).map RowValue.scalar
    cases s.read (w.widen s.kind) <;> rfl

theorem Value.decode_none (v : Value) : v.decode none = .ok v := by
  cases v <;> rfl

/-- Nothing but an integer that a float is wanted for is widened. -/
theorem Value.widen_eq_self {v : Value} {kind : SlotKind} (h : ∀ n, v = .int n → kind ≠ .float) :
    v.widen kind = v := by
  unfold widen
  split
  · next n => exact absurd rfl (h n rfl)
  · rfl

/-- A value that is of some type is of the type it is coerced to. -/
theorem Value.scalarType_of_coerce {v w : Value} {type : ScalarType} (hnull : v.isNull = false)
    (h : v.coerce type = .ok w) : w.scalarType = some type := by
  unfold coerce at h
  split at h
  · next hnone =>
    rw [scalarType_eq_none.mp hnone] at hnull
    cases hnull
  · next found hfound =>
    split at h
    · next heq =>
      cases h
      rw [hfound, heq]
    · split at h
      · next htext =>
        cases h
        rw [htext]
        rfl
      · cases h

/-- Coercion to the type of a slot does what reading into the slot does once more. -/
theorem Slot.read_coerce (s : Slot) (v : Value) : (v.coerce s.scalarType >>= s.read) = s.read v := by
  cases hnull : v.isNull with
  | true =>
    rw [Value.isNull_eq_true.mp hnull]
    rfl
  | false =>
    have hread : s.read v = s.kind.read v := by rw [read, hnull, Bool.and_false, if_neg Bool.false_ne_true]
    cases hcoerce : v.coerce s.scalarType with
    | error fault =>
      have hcoerce' : v.coerce s.kind.scalarType = .error fault := hcoerce
      rw [hread, SlotKind.read, hcoerce']
      rfl
    | ok w =>
      have hcoerce' : v.coerce s.kind.scalarType = .ok w := hcoerce
      have hidem : w.coerce s.kind.scalarType = .ok w := Value.coerce_idem hcoerce'
      have hw : w.isNull = false := by
        have htype := Value.scalarType_of_coerce hnull hcoerce
        cases w <;> first | rfl | cases htype
      show s.read w = s.read v
      rw [hread, read, hw, Bool.and_false, if_neg Bool.false_ne_true, SlotKind.read, SlotKind.read, hidem, hcoerce']

/-! ## Of what account the declared type is -/

namespace Slot

variable {s : Slot}

theorem readDeclared_none (s : Slot) (v : Value) : s.readDeclared none v = s.read (v.widen s.kind) := by
  rw [readDeclared, Value.decode_none]
  rfl

/-- A declared type that decodes nothing coerces, and leaves nothing to widen. -/
theorem readDeclared_of_coerce {v : Value} (hdecode : v.decode (some s.scalarType) = v.coerce s.scalarType)
    (hfloat : ∀ n, v = .int n → s.kind ≠ .float) :
    s.readDeclared (some s.scalarType) v = s.readDeclared none v := by
  have hwiden : ∀ w, v.coerce s.scalarType = .ok w → w.widen s.kind = w := by
    intro w hw
    refine Value.widen_eq_self ?_
    rintro n rfl hkind
    cases hnull : v.isNull with
    | true =>
      rw [Value.isNull_eq_true.mp hnull] at hw
      cases hw
    | false =>
      have htype := Value.scalarType_of_coerce hnull hw
      rw [scalarType, hkind] at htype
      cases htype
  rw [readDeclared_none, Value.widen_eq_self hfloat, ← read_coerce, readDeclared, hdecode]
  cases hcoerce : v.coerce s.scalarType with
  | error fault => rfl
  | ok w => exact congrArg s.read (hwiden w hcoerce)

theorem readDeclared_int_bool (hkind : s.kind = .bool) (n : Int64) :
    s.readDeclared (some s.scalarType) (.int n) = .ok (.bool (n != 0)) ∧
      s.readDeclared none (.int n) = .error (.typeMismatch .bool (.value .int)) := by
  obtain ⟨kind, optional⟩ := s
  cases hkind
  cases optional <;> exact ⟨rfl, rfl⟩

theorem readDeclared_int_float (hkind : s.kind = .float) (n : Int64) :
    s.readDeclared none (.int n) = .ok (.float (Decimal.ofInt64 n)) := by
  obtain ⟨kind, optional⟩ := s
  cases hkind
  cases optional <;> rfl

theorem readDeclared_text_dateTime (hkind : s.kind = .dateTime) (text : String) :
    s.readDeclared (some s.scalarType) (.text text) = (readMoment text).map .dateTime ∧
      s.readDeclared none (.text text) = .error (.typeMismatch .dateTime (.value .text)) := by
  obtain ⟨kind, optional⟩ := s
  cases hkind
  refine ⟨?_, by cases optional <;> rfl⟩
  have hdecode : Value.decode (.text text) (some .dateTime) = (readMoment text).map .dateTime := by
    show (readMoment text >>= fun t => pure (Value.dateTime t)) = _
    cases readMoment text <;> rfl
  show (Value.decode (.text text) (some .dateTime) >>= _) = _
  rw [hdecode]
  cases readMoment text with
  | error fault => rfl
  | ok t => cases optional <;> rfl

/-- A text that denotes no moment is refused for one reason or another. -/
theorem readMoment_eq_error {text : String} {fault : Fault} (h : readMoment text = .error fault) :
    ∃ found, fault = .typeMismatch .dateTime found := by
  simp only [readMoment] at h
  split at h
  · cases h
  · cases h
    exact ⟨_, rfl⟩

/-- Where neither an integer may be a truth value or a float nor a text a moment, the declared type changes nothing. -/
theorem readDeclared_alike {v : Value} (hint : ∀ n, v = .int n → s.kind ≠ .bool ∧ s.kind ≠ .float)
    (htext : ∀ text t, v = .text text → s.kind = .dateTime → readMoment text ≠ .ok t) :
    Alike (s.readDeclared (some s.scalarType) v) (s.readDeclared none v) := by
  by_cases hmoment : s.kind = .dateTime ∧ ∃ text, v = .text text
  · obtain ⟨hkind, text, rfl⟩ := hmoment
    obtain ⟨hdeclared, hundeclared⟩ := readDeclared_text_dateTime hkind text
    rw [hdeclared, hundeclared]
    cases hread : readMoment text with
    | ok t => exact absurd hread (htext text t rfl hkind)
    | error fault =>
      obtain ⟨found, rfl⟩ := readMoment_eq_error hread
      exact .error rfl
  · refine .of_eq (readDeclared_of_coerce ?_ fun n hn => (hint n hn).2)
    obtain ⟨kind, optional⟩ := s
    cases v with
    | text text => cases kind <;> first | rfl | exact absurd ⟨rfl, text, rfl⟩ hmoment
    | int n => cases kind <;> first | rfl | exact absurd rfl (hint n rfl).1
    | _ => rfl

end Slot

/-- A row that is read as a scalar. The declared type changes nothing, but that under it an integer becomes a truth
value and a text the moment it denotes, which are refused where no type is declared. Where none is declared an integer
becomes a float. -/
theorem Cursor.materialize_scalar_declared (c : Cursor) (name : String) (s : Slot) :
    let declared := c.materialize (.scalar (some s.scalarType)) ⟨name, .slot s⟩
    let undeclared := c.materialize (.scalar none) ⟨name, .slot s⟩
    ((∀ n, c.value 0 = .int n → s.kind ≠ .bool ∧ s.kind ≠ .float) →
      (∀ text t, c.value 0 = .text text → s.kind = .dateTime → readMoment text ≠ .ok t) →
        Alike declared undeclared) ∧
    (∀ n, c.value 0 = .int n → s.kind = .bool →
      declared = .ok (.scalar (.bool (n != 0))) ∧ undeclared = .error (.typeMismatch .bool (.value .int))) ∧
    (∀ text t, c.value 0 = .text text → s.kind = .dateTime → readMoment text = .ok t →
      declared = .ok (.scalar (.dateTime t)) ∧ undeclared = .error (.typeMismatch .dateTime (.value .text))) ∧
    ∀ n, c.value 0 = .int n → s.kind = .float → undeclared = .ok (.scalar (.float (Decimal.ofInt64 n))) := by
  simp only [materialize_scalar]
  refine ⟨fun hint htext => (Slot.readDeclared_alike hint htext).map _, fun n hn hkind => ?_,
    fun text t hvalue hkind hread => ?_, fun n hn hkind => ?_⟩
  · obtain ⟨hdeclared, hundeclared⟩ := Slot.readDeclared_int_bool hkind n
    rw [hn, hdeclared, hundeclared]
    exact ⟨rfl, rfl⟩
  · obtain ⟨hdeclared, hundeclared⟩ := Slot.readDeclared_text_dateTime hkind text
    rw [hvalue, hdeclared, hundeclared, hread]
    exact ⟨rfl, rfl⟩
  · rw [hn, Slot.readDeclared_int_float hkind]
    rfl

/-- A truth value that the driver hands back as an integer, and a number that is wanted as a text. -/
theorem Cursor.materialize_scalar_declared_active :
    (onlyRow ["Active"] [.int 1]).materialize (.scalar (some .bool)) ⟨"bool", .slot ⟨.bool, false⟩⟩ =
        .ok (.scalar (.bool true)) ∧
      (onlyRow ["Active"] [.int 1]).materialize (.scalar none) ⟨"bool", .slot ⟨.bool, false⟩⟩ =
        .error (.typeMismatch .bool (.value .int)) ∧
      Alike ((onlyRow ["Age"] [.int 41]).materialize (.scalar (some .text)) ⟨"String", .slot ⟨.text, false⟩⟩)
        ((onlyRow ["Age"] [.int 41]).materialize (.scalar none) ⟨"String", .slot ⟨.text, false⟩⟩) := by
  obtain ⟨-, hbool, -⟩ := materialize_scalar_declared (onlyRow ["Active"] [.int 1]) "bool" ⟨.bool, false⟩
  obtain ⟨hdeclared, hundeclared⟩ := hbool 1 rfl rfl
  obtain ⟨halike, -⟩ := materialize_scalar_declared (onlyRow ["Age"] [.int 41]) "String" ⟨.text, false⟩
  exact ⟨hdeclared, hundeclared, halike (fun _ _ => ⟨nofun, nofun⟩) fun _ _ h => nomatch h⟩

/-- One query reads a truth value in an integer and another refuses it. -/
theorem Cursor.not_materialize_scalar_alike :
    ¬ ∀ (c : Cursor) (name : String) (s : Slot),
      Alike (c.materialize (.scalar (some s.scalarType)) ⟨name, .slot s⟩)
        (c.materialize (.scalar none) ⟨name, .slot s⟩) := by
  intro h
  have hdeclared : (onlyRow ["Active"] [.int 1]).materialize (.scalar (some .bool)) ⟨"bool", .slot ⟨.bool, false⟩⟩ =
    .ok (.scalar (.bool true)) := rfl
  have hundeclared : (onlyRow ["Active"] [.int 1]).materialize (.scalar none) ⟨"bool", .slot ⟨.bool, false⟩⟩ =
    .error (.typeMismatch .bool (.value .int)) := rfl
  have halike := h (onlyRow ["Active"] [.int 1]) "bool" ⟨.bool, false⟩
  rw [show (⟨.bool, false⟩ : Slot).scalarType = .bool from rfl, hdeclared, hundeclared] at halike
  exact Alike.not_ok_error halike

end QueryChain
