import QueryChain.Proofs.Lowering.Retyped

/-!
# Captured values and literals

A member path on a captured object leads to a scalar that is known before the query runs. Its static type is unknown
all the same, since a tree does not look into the object when it is built. A literal has the type of its value, and the
nodes around it may get a type from there. So a literal in place of a path changes the types in a tree, and lowering
notices where such a type is that of a text and stands on a side of `+`. Everything else goes by the value alone.

* `Captured.follow`, `Expr.capturedPath`: member paths, and where they lead to.
* `Expr.WritesOut`: paths that are replaced by the literals of what they lead to.
* `Expr.WritesOut.retyped`: unless texts come to be joined, a tree changes in its scalar types only.
* `Expr.WritesOut.compile_literals`: and so it compiles to the same.
* `Expr.not_compile_joined`: where a text comes to be joined it does not.
-/

namespace QueryChain

/-- Whether a value is a text. -/
def Value.isText : Value → Bool
  | .text _ => true
  | _ => false

/-! ## Member paths -/

namespace Captured

/-- What a member is: that of an object, or the length of a text. -/
def step (c : Captured) (name : String) : Except Fault Captured :=
  match c with
  | .scalar (.text s) => if name = "Length" then .ok (.scalar (.int (Int64.ofNat s.length))) else c.member name
  | _ => c.member name

/-- Objects have members, and texts have a length. -/
theorem step_eq_ok {c d : Captured} {name : String} (h : c.step name = .ok d) :
    (∃ typeName fields, c = .object typeName fields ∧ c.member name = .ok d) ∨
      ∃ s, c = .scalar (.text s) ∧ name = "Length" ∧ d = .scalar (.int (Int64.ofNat s.length)) := by
  cases c with
  | object typeName fields => exact Or.inl ⟨typeName, fields, rfl, h⟩
  | scalar v =>
    cases v with
    | text s =>
      rw [step] at h
      split at h
      · next hname =>
        cases h
        exact Or.inr ⟨s, rfl, hname, rfl⟩
      · cases h
    | _ => cases h

/-- What a member path leads to. -/
def follow (c : Captured) (path : List String) : Except Fault Captured := path.foldlM step c

theorem follow_cons_eq_ok {c d : Captured} {name : String} {path : List String} :
    c.follow (name :: path) = .ok d ↔ ∃ member, c.step name = .ok member ∧ member.follow path = .ok d := by
  rw [follow, List.foldlM_cons, bind_eq_ok]
  rfl

end Captured

namespace Expr

open Lowering Lower

/-- A member path on a captured value. -/
def capturedPath (c : Captured) (path : List String) : Expr := path.foldl member (ofCaptured c)

/-- An expression that stands for a captured value, and has its static type unless that is unknown. -/
structure LeadsTo (e : Expr) (c : Captured) : Prop where
  known : e.IsKnown (.ofCaptured c)
  ty_eq : e.ty = .unknown ∨ e.ty = (ofCaptured c).ty

theorem leadsTo_ofCaptured (c : Captured) : (ofCaptured c).LeadsTo c :=
  ⟨⟨fun _ => rfl, rfl, rfl, rfl⟩, Or.inr rfl⟩

theorem memberOf_ofCaptured {c d : Captured} {name : String} (h : c.step name = .ok d) :
    memberOf (.ofCaptured c) name = pure (.ofCaptured d) := by
  rcases Captured.step_eq_ok h with ⟨typeName, fields, rfl, hmember⟩ | ⟨s, rfl, rfl, rfl⟩
  · show (require ((Captured.object typeName fields).member name) >>= fun d => pure (Row.ofCaptured d) : Lower Row) = _
    rw [hmember]
    rfl
  · rfl

/-- A member of an unknown type is of an unknown type, and so is a member of an object. -/
theorem LeadsTo.member {e : Expr} {c d : Captured} (he : e.LeadsTo c) {name : String} (h : c.step name = .ok d) :
    (e.member name).LeadsTo d := by
  refine ⟨⟨fun env => ?_, he.known.isRowDerived_eq, rfl, rfl⟩, ?_⟩
  · rw [Expr.member, rowOf, he.known.rowOf_eq, pure_bind, memberOf_ofCaptured h]
  · rw [Expr.member, ty]
    rcases he.ty_eq with hty | hty
    · rw [hty]
      exact Or.inl rfl
    · rw [hty]
      rcases Captured.step_eq_ok h with ⟨typeName, fields, rfl, hmember⟩ | ⟨s, rfl, rfl, rfl⟩
      · exact Or.inl rfl
      · exact Or.inr rfl

theorem LeadsTo.path {e : Expr} {c d : Captured} (he : e.LeadsTo c) {path : List String}
    (h : c.follow path = .ok d) : (path.foldl Expr.member e).LeadsTo d := by
  induction path generalizing e c with
  | nil =>
    cases h
    exact he
  | cons name path ih =>
    obtain ⟨m, hm, hrest⟩ := Captured.follow_cons_eq_ok.mp h
    exact ih (he.member hm) hrest

/-- A member path stands for what it leads to. -/
theorem leadsTo_capturedPath {c d : Captured} {path : List String} (h : c.follow path = .ok d) :
    (capturedPath c path).LeadsTo d :=
  (leadsTo_ofCaptured c).path h

/-- The type of a literal is that of the path but for scalar types, of which texts matter if it is one. -/
theorem erase_ty_capturedPath {c : Captured} {path : List String} {v : Value} (h : c.follow path = .ok (.scalar v)) :
    (capturedPath c path).ty.erase v.isText = (ofValue v).ty.erase v.isText := by
  rcases (leadsTo_capturedPath h).ty_eq with hty | hty
  · rw [hty]
    cases v <;> rfl
  · rw [hty]
    rfl

/-! ## Literals in place of paths -/

mutual

/-- In the second tree, literals of a value stand in place of member paths that lead to it, and the nodes around them
are rebuilt. Where a static type or a model is passed on to a node, it may change with the types below in scalar types,
of which those of texts may change if the value is one. -/
inductive WritesOut (v : Value) : Expr → Expr → Prop
  | same (e : Expr) : WritesOut v e e
  | written {c : Captured} {path : List String} (h : c.follow path = .ok (.scalar v)) :
      WritesOut v (capturedPath c path) (.ofValue v)
  | param (name : String) {t u : StaticType} (hty : t.erase v.isText = u.erase v.isText) :
      WritesOut v (.param name t) (.param name u)
  | member {e e' : Expr} (he : WritesOut v e e') (name : String) : WritesOut v (e.member name) (e'.member name)
  | applyOp (op : BinaryOp) {l l' r r' : Expr} (hl : WritesOut v l l') (hr : WritesOut v r r') :
      WritesOut v (.applyOp op l r) (.applyOp op l' r')
  | callMethod {e e' : Expr} (he : WritesOut v e e') (name : String) {args args' : List Expr}
      (hargs : AllWriteOut v args args') : WritesOut v (e.callMethod name args) (e'.callMethod name args')
  | operator (name : String) {args args' : List Expr} (hargs : AllWriteOut v args args') {t u : StaticType}
      (hty : t.erase v.isText = u.erase v.isText) : WritesOut v (.operator name args t) (.operator name args' u)
  | function (params : List String) {body body' : Expr} (hbody : WritesOut v body body') :
      WritesOut v (.function params body) (.function params body')
  | quoted {e e' : Expr} (he : WritesOut v e e') : WritesOut v e.quoted e'.quoted
  | newObject {m m' : Model} (hm : m.erase v.isText = m'.erase v.isText) (shape : ShapeKind)
      {members members' : List (String × Expr)} (hmembers : MembersWriteOut v members members') :
      WritesOut v (.newObject m shape members) (.newObject m' shape members')

/-- The same for lists of trees. -/
inductive AllWriteOut (v : Value) : List Expr → List Expr → Prop
  | nil : AllWriteOut v [] []
  | cons {e e' : Expr} {rest rest' : List Expr} (he : WritesOut v e e') (hrest : AllWriteOut v rest rest') :
      AllWriteOut v (e :: rest) (e' :: rest')

/-- The same for members with the same names. -/
inductive MembersWriteOut (v : Value) : List (String × Expr) → List (String × Expr) → Prop
  | nil : MembersWriteOut v [] []
  | cons (name : String) {e e' : Expr} {rest rest' : List (String × Expr)} (he : WritesOut v e e')
      (hrest : MembersWriteOut v rest rest') : MembersWriteOut v ((name, e) :: rest) ((name, e') :: rest')

end

theorem WritesOut.erase_ty {v : Value} {e e' : Expr} (h : WritesOut v e e') :
    e.ty.erase v.isText = e'.ty.erase v.isText := by
  cases h with
  | same e => rfl
  | written h => exact erase_ty_capturedPath h
  | param name hty => exact hty
  | member he name => exact StaticType.member_congr he.erase_ty name
  | applyOp op hl hr =>
    rw [ty_applyOp, ty_applyOp]
    split
    · rfl
    · exact hl.erase_ty
  | callMethod he name hargs => rfl
  | operator name hargs hty => exact hty
  | function params hbody => exact hbody.erase_ty
  | quoted he => exact he.erase_ty
  | newObject hm shape hmembers => exact congrArg StaticType.model hm

/-! ## Texts that are joined -/

mutual

/-- Whether texts are joined, for every operator of a tree. -/
def textSums : Expr → List Bool
  | .value _ _ | .captured _ _ | .table _ _ | .param _ _ => []
  | .field target _ _ => textSums target
  | .binary op l r _ => joinsTexts op l r :: (textSums l ++ textSums r)
  | .method target _ args _ => textSums target ++ argumentSums args
  | .operator _ args _ => argumentSums args
  | .lambda _ body _ => textSums body
  | .quote inner _ => textSums inner
  | .object _ members _ => memberSums members

/-- The same for several trees. -/
def argumentSums : List Expr → List Bool
  | [] => []
  | e :: rest => textSums e ++ argumentSums rest

/-- The same for the members of a new object. -/
def memberSums : List (String × Expr) → List Bool
  | [] => []
  | member :: rest => sumsIn member ++ memberSums rest

/-- The same for a member of a new object. -/
def sumsIn : String × Expr → List Bool
  | (_, e) => textSums e

end

theorem textSums_capturedPath (c : Captured) (path : List String) : (capturedPath c path).textSums = [] := by
  have hpath (e : Expr) (he : e.textSums = []) : (path.foldl Expr.member e).textSums = [] := by
    induction path generalizing e with
    | nil => exact he
    | cons name path ih => exact ih (e.member name) he
  exact hpath (ofCaptured c) rfl

mutual

theorem WritesOut.length_textSums {v : Value} {e e' : Expr} (h : WritesOut v e e') :
    e.textSums.length = e'.textSums.length := by
  cases h with
  | same e => rfl
  | written h => rw [textSums_capturedPath]; rfl
  | param name hty => rfl
  | member he name => exact he.length_textSums
  | applyOp op hl hr =>
    rw [applyOp, applyOp, textSums, textSums, List.length_cons, List.length_cons, List.length_append,
      List.length_append, hl.length_textSums, hr.length_textSums]
  | callMethod he name hargs =>
    rw [callMethod, callMethod, textSums, textSums, List.length_append, List.length_append, he.length_textSums,
      hargs.length_argumentSums]
  | operator name hargs hty => exact hargs.length_argumentSums
  | function params hbody => exact hbody.length_textSums
  | quoted he => exact he.length_textSums
  | newObject hm shape hmembers => exact hmembers.length_memberSums

theorem AllWriteOut.length_argumentSums {v : Value} {es es' : List Expr} (h : AllWriteOut v es es') :
    (argumentSums es).length = (argumentSums es').length := by
  cases h with
  | nil => rfl
  | cons he hrest =>
    rw [argumentSums, argumentSums, List.length_append, List.length_append, he.length_textSums,
      hrest.length_argumentSums]

theorem MembersWriteOut.length_memberSums {v : Value} {members members' : List (String × Expr)}
    (h : MembersWriteOut v members members') : (memberSums members).length = (memberSums members').length := by
  cases h with
  | nil => rfl
  | cons name he hrest =>
    rw [memberSums, memberSums, sumsIn, sumsIn, List.length_append, List.length_append, he.length_textSums,
      hrest.length_memberSums]

end

/-! ## Compiled trees -/

/-- Sides whose types are the same but for scalar types other than texts join texts alike. -/
theorem joinsTexts_congr {l l' r r' : Expr} (hl : l.ty.erase false = l'.ty.erase false)
    (hr : r.ty.erase false = r'.ty.erase false) (op : BinaryOp) : joinsTexts op l r = joinsTexts op l' r' := by
  simp only [joinsTexts, StaticType.asScalar_eq_text_congr hl, StaticType.asScalar_eq_text_congr hr]

section

variable {v : Value}

mutual

/-- With literals in place of paths a tree is the same but for scalar types, unless texts come to be joined. -/
theorem WritesOut.retyped {e e' : Expr} (h : WritesOut v e e')
    (hsums : v.isText = true → e.textSums = e'.textSums) : Retyped e e' := by
  have hty := StaticType.erase_of_erase h.erase_ty
  cases h with
  | same e => exact Retyped.refl e
  | written h => exact .written (leadsTo_capturedPath h).known hty
  | param name _ => exact .param name hty
  | member he name => exact .field (he.retyped hsums) name hty
  | applyOp op hl hr =>
    have hsplit (hv : v.isText = true) := List.cons_eq_cons.mp (hsums hv)
    have hsides (hv : v.isText = true) := List.append_inj (hsplit hv).2 hl.length_textSums
    refine .binary op (hl.retyped fun hv => (hsides hv).1) (hr.retyped fun hv => (hsides hv).2) ?_ hty
    cases hv : v.isText with
    | true => exact (hsplit hv).1
    | false =>
      have hleft := hl.erase_ty
      have hright := hr.erase_ty
      rw [hv] at hleft hright
      exact joinsTexts_congr hleft hright op
  | callMethod he name hargs =>
    have hparts (hv : v.isText = true) := List.append_inj (hsums hv) he.length_textSums
    exact .method (he.retyped fun hv => (hparts hv).1) name (hargs.retyped fun hv => (hparts hv).2) hty
  | operator name hargs _ => exact .operator name (hargs.retyped hsums) hty
  | function params hbody => exact .lambda params (hbody.retyped hsums) hty
  | quoted he => exact .quote (he.retyped hsums) hty
  | newObject hm shape hmembers => exact .object shape (hmembers.retyped hsums) hty

theorem AllWriteOut.retyped {es es' : List Expr} (h : AllWriteOut v es es')
    (hsums : v.isText = true → argumentSums es = argumentSums es') : AllRetyped es es' := by
  cases h with
  | nil => exact .nil
  | cons he hrest =>
    have hparts (hv : v.isText = true) := List.append_inj (hsums hv) he.length_textSums
    exact .cons (he.retyped fun hv => (hparts hv).1) (hrest.retyped fun hv => (hparts hv).2)

theorem MembersWriteOut.retyped {members members' : List (String × Expr)} (h : MembersWriteOut v members members')
    (hsums : v.isText = true → memberSums members = memberSums members') :
    MembersRetyped members members' := by
  cases h with
  | nil => exact .nil
  | cons name he hrest =>
    have hparts (hv : v.isText = true) := List.append_inj (hsums hv) he.length_textSums
    exact .cons name (he.retyped fun hv => (hparts hv).1) (hrest.retyped fun hv => (hparts hv).2)

end

/-- With literals in place of paths a tree compiles to the same statement, and to a shape that is the same but for
scalar types, or neither tree compiles, unless the value is a text and the literal has an operator join texts. -/
theorem WritesOut.compile_literals {e e' : Expr} (h : WritesOut v e e')
    (hsums : v.isText = true → e.textSums = e'.textSums) (o : Options) :
    (e.compile o).toOption.map Compiled.erase = (e'.compile o).toOption.map Compiled.erase :=
  (h.retyped hsums).compile_erase o

end

/-- Customers, of whom age and city are known. -/
def resident : Model :=
  .dynamic (.schema "Customer") "Customer" "Customers" [("Age", "Age", some .int), ("City", "City", some .text)] none

/-- What the calling program looks for. -/
def wanted : Captured := .object "Filter" [("City", .scalar (.text "Oslo"))]

/-- An operator over all customers that is given a function of one of them. -/
def overResidents (operator : String) (body : Expr) : Expr :=
  .operator operator [ofTable resident, function ["c"] body] (.sequence .unknown)

/-- A function that joins a field of a customer with a city. -/
def fieldWith (op : BinaryOp) (field : String) (city : Expr) : Expr :=
  applyOp op ((param "c" (.model resident)).member field) city

theorem writesOut_overResidents (operator : String) (op : BinaryOp) (field : String) :
    WritesOut (.text "Oslo") (overResidents operator (fieldWith op field (capturedPath wanted ["City"])))
      (overResidents operator (fieldWith op field (.ofValue (.text "Oslo")))) :=
  .operator operator (.cons (.same _) (.cons (.function ["c"] (.applyOp op (.same _) (.written rfl))) .nil)) rfl

/-- A captured city is compared with as its name is: `Customers.Where(c => c.City == wanted.City)`. -/
theorem compile_literals_compared :
    WritesOut (.text "Oslo") (overResidents "Where" (fieldWith .eq "City" (capturedPath wanted ["City"])))
        (overResidents "Where" (fieldWith .eq "City" (.ofValue (.text "Oslo")))) ∧
      (Value.text "Oslo").isText = true ∧
      ((overResidents "Where" (fieldWith .eq "City" (capturedPath wanted ["City"]))).compile .standard).toOption.map
          Compiled.erase =
        ((overResidents "Where" (fieldWith .eq "City" (.ofValue (.text "Oslo")))).compile .standard).toOption.map
          Compiled.erase := by
  have h := writesOut_overResidents "Where" .eq "City"
  exact ⟨h, rfl, h.compile_literals (fun _ => by decide) .standard⟩

/-- A captured city is added to an age, where its name is joined with it:
`Customers.Select(c => c.Age + wanted.City)`. -/
theorem not_compile_joined :
    wanted.follow ["City"] = .ok (.scalar (.text "Oslo")) ∧
      WritesOut (.text "Oslo") (overResidents "Select" (fieldWith .add "Age" (capturedPath wanted ["City"])))
        (overResidents "Select" (fieldWith .add "Age" (.ofValue (.text "Oslo")))) ∧
      ∃ q q' : Compiled,
        (overResidents "Select" (fieldWith .add "Age" (capturedPath wanted ["City"]))).compile ⟨"t", true, .sqlite⟩ =
          .ok q ∧
        (overResidents "Select" (fieldWith .add "Age" (.ofValue (.text "Oslo")))).compile ⟨"t", true, .sqlite⟩ =
          .ok q' ∧
        q.sql = "SELECT (t0.Age + 'Oslo') FROM Customers t0" ∧
        q'.sql = "SELECT (t0.Age || 'Oslo') FROM Customers t0" :=
  ⟨rfl, writesOut_overResidents "Select" .add "Age", _, _, rfl, rfl, by decide, by decide⟩

end Expr

end QueryChain
