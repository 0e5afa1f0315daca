import QueryChain.Proofs.Chain.Operator
import QueryChain.Proofs.Clauses.Allowed
import QueryChain.Proofs.Clauses.Interleaving

/-!
# Reading through a projection

A function over projected rows that looks at their members only can be made a function over the rows below, with each
member replaced by what it was projected from. A member of a projected row is what its expression stands for, a term or
a known value, so the expression in its place stands for the same; and it has the same static type, which decides how
texts are joined.

* `Expr.inline`: an expression with members replaced.
* `Expr.ReadsMembers`: expressions that look at the members of a row only.
* `Expr.run_inline`: such an expression yields for a projected row what it yields for the row below with members
  replaced.
* `Expr.compile_inline`: filters, sorts and projections after a projection.
-/

namespace QueryChain

open Lowering Lower

/-- Whether rows are projected onto a single scalar. -/
def Projection.isScalar : Projection → Bool
  | .scalar _ _ => true
  | .object _ _ _ => false

/-- Whether rows are single scalars. -/
def RowShape.isScalar : RowShape → Bool
  | .scalar _ => true
  | _ => false

/-- The projection settles whether rows are single scalars. -/
theorem Clauses.isScalar_of_assemble {c : Clauses} {p : Projection} (hp : c.projection = some p) {t : Lowered}
    (h : c.assemble = .ok t) : t.shape.isScalar = p.isScalar := by
  obtain ⟨root, items, shape, -, hselection, rfl⟩ := assemble_eq_ok_iff.mp h
  rw [selection, hp] at hselection
  cases p with
  | scalar type value =>
    obtain ⟨t, -, ⟨⟩⟩ := bind_eq_ok.mp hselection
    rfl
  | object positional m fields =>
    obtain ⟨items, -, hselection⟩ := bind_eq_ok.mp hselection
    split at hselection
    · obtain ⟨shape, hshape, ⟨⟩⟩ := bind_eq_ok.mp hselection
      rw [positionalShape] at hshape
      split at hshape
      · obtain ⟨_, -, ⟨⟩⟩ := bind_eq_ok.mp hshape
        rfl
      · cases hshape
    · obtain ⟨shape, hshape, ⟨⟩⟩ := bind_eq_ok.mp hselection
      obtain ⟨_, -, ⟨⟩⟩ := bind_eq_ok.mp hshape
      rfl

namespace Expr

/-! ## Replacing members -/

/-- Whether an expression is a parameter with this name. -/
def isParam (r : String) : Expr → Bool
  | .param p _ => p = r
  | _ => false

mutual

/-- An expression in which every member of a parameter is replaced by the first expression of that name. -/
def inline (r : String) (members : List (String × Expr)) : Expr → Expr
  | .field target name ty =>
    if target.isParam r then (members.lookup name).getD (.field target name ty)
    else .field (inline r members target) name ty
  | .binary op left right ty => .binary op (inline r members left) (inline r members right) ty
  | .method target name args ty => .method (inline r members target) name (inlineAll r members args) ty
  | .operator name args ty => .operator name (inlineAll r members args) ty
  | .lambda params body ty => .lambda params (inline r members body) ty
  | .quote inner ty => .quote (inline r members inner) ty
  | .object shape ms ty => .object shape (inlineMembers r members ms) ty
  | e => e

/-- The same for each of several expressions. -/
def inlineAll (r : String) (members : List (String × Expr)) : List Expr → List Expr
  | [] => []
  | e :: rest => inline r members e :: inlineAll r members rest

/-- The same for the members of a new object. -/
def inlineMembers (r : String) (members : List (String × Expr)) : List (String × Expr) → List (String × Expr)
  | [] => []
  | member :: rest => inlineMember r members member :: inlineMembers r members rest

/-- The same for a member of a new object. -/
def inlineMember (r : String) (members : List (String × Expr)) : String × Expr → String × Expr
  | (name, e) => (name, inline r members e)

end

mutual

/-- An expression without operators that looks at a row of some type by its members only, each with the type that a
member of the row has. -/
def ReadsMembers (r : String) (row : StaticType) : Expr → Prop
  | .field target name ty =>
    (target.isParam r = true → ty = row.member name) ∧ (target.isParam r = false → ReadsMembers r row target)
  | .value _ _ | .captured _ _ | .table _ _ => True
  | .param p _ => p ≠ r
  | .binary _ left right _ => ReadsMembers r row left ∧ ReadsMembers r row right
  | .method target _ args _ => ReadsMembers r row target ∧ AllReadMembers r row args
  | .operator _ _ _ => False
  | .lambda _ body _ => ReadsMembers r row body
  | .quote inner _ => ReadsMembers r row inner
  | .object _ members _ => MembersReadMembers r row members

/-- The same for each of several expressions. -/
def AllReadMembers (r : String) (row : StaticType) : List Expr → Prop
  | [] => True
  | e :: rest => ReadsMembers r row e ∧ AllReadMembers r row rest

/-- The same for the members of a new object. -/
def MembersReadMembers (r : String) (row : StaticType) : List (String × Expr) → Prop
  | [] => True
  | member :: rest => MemberReadsMembers r row member ∧ MembersReadMembers r row rest

/-- The same for a member of a new object. -/
def MemberReadsMembers (r : String) (row : StaticType) : String × Expr → Prop
  | (_, e) => ReadsMembers r row e

end

/-- There is no operator. -/
def NoOperator (_ : String) (_ : List Expr) : Prop := False

section

variable {r : String} {row : StaticType} {members : List (String × Expr)}

mutual

theorem ReadsMembers.every (e : Expr) (h : e.ReadsMembers r row) : e.Every (fun _ => True) IsGroupFold := by
  cases e with
  | value _ _ | captured _ _ | param _ _ | table _ _ => exact trivial
  | field target _ _ =>
    cases hparam : target.isParam r with
    | false => exact ReadsMembers.every target (h.2 hparam)
    | true =>
      cases target with
      | param _ _ => exact trivial
      | _ => cases hparam
  | binary _ left right _ => exact ⟨ReadsMembers.every left h.1, ReadsMembers.every right h.2⟩
  | method target _ args _ => exact ⟨ReadsMembers.every target h.1, AllReadMembers.every args h.2⟩
  | operator _ _ _ => exact h.elim
  | lambda _ body _ => exact ReadsMembers.every body h
  | quote inner _ => exact ReadsMembers.every inner h
  | object _ members _ => exact MembersReadMembers.every members h

theorem AllReadMembers.every (es : List Expr) (h : AllReadMembers r row es) :
    EveryArgument (fun _ => True) IsGroupFold es := by
  cases es with
  | nil => exact trivial
  | cons e rest => exact ⟨ReadsMembers.every e h.1, AllReadMembers.every rest h.2⟩

theorem MembersReadMembers.every (members : List (String × Expr)) (h : MembersReadMembers r row members) :
    EveryMember (fun _ => True) IsGroupFold members := by
  cases members with
  | nil => exact trivial
  | cons member rest => exact ⟨MemberReadsMembers.every member h.1, MembersReadMembers.every rest h.2⟩

theorem MemberReadsMembers.every (member : String × Expr) (h : MemberReadsMembers r row member) :
    EveryIn (fun _ => True) IsGroupFold member := by
  cases member with
  | mk name e => exact ReadsMembers.every e h

end

/-- The expression that replaces a member has the static type of the member, so all static types stay. -/
theorem ty_inline (hty : ∀ name e, members.lookup name = some e → e.ty = row.member name) {e : Expr}
    (h : e.ReadsMembers r row) : (e.inline r members).ty = e.ty := by
  cases e with
  | field target name ty =>
    rw [inline]
    split
    · rename_i hparam
      cases hlookup : members.lookup name with
      | none => rfl
      | some e => exact (hty name e hlookup).trans (h.1 hparam).symm
    · rfl
  | _ => rfl

/-- What makes a new object still does. -/
theorem objectShape_inline {e : Expr} {shape : ShapeKind} (h : e.objectShape = some shape) :
    (e.inline r members).objectShape = some shape := by
  cases e with
  | object _ _ _ => exact h
  | _ => cases h

theorem joinsTexts_inline (hty : ∀ name e, members.lookup name = some e → e.ty = row.member name) (op : BinaryOp)
    {left right : Expr} (hleft : left.ReadsMembers r row) (hright : right.ReadsMembers r row) :
    joinsTexts op (left.inline r members) (right.inline r members) = joinsTexts op left right := by
  rw [joinsTexts, joinsTexts, ty_inline hty hleft, ty_inline hty hright]

end

end Expr

/-! ## Clauses to read from -/

/-- Clauses with these aliases and joins. None of certain tables can become the root. -/
structure Clauses.ReadFrom (n : Nat) (js : List Join) (table : Model → Prop) (c : Clauses) : Prop where
  aliases : c.aliases = n
  joins : c.joins = js
  settled : c.RootSettled table

section

variable {α : Type} {n : Nat} {js : List Join} {table table' : Model → Prop} {m : Lower α} {a : α} {c c' d : Clauses}

theorem Clauses.ReadFrom.rooted (h : c.ReadFrom n js table) (t : Option TableRef) :
    (c.rooted t).ReadFrom n js table where
  aliases := h.aliases
  joins := h.joins
  settled := h.settled.imp_left fun hroot => by rwa [Clauses.rooted_of_root hroot]

theorem Clauses.ReadFrom.on (h : c.ReadFrom n js table) (mark : Mark) : (mark.on c).ReadFrom n js table := by
  cases mark <;> exact ⟨h.aliases, h.joins, h.settled⟩

/-- After a step that only reads there is as much to read. -/
theorem Lower.Reads.readFrom (hm : Reads n js table' m) (hc : c.ReadFrom n js table)
    (h : ExceptT.run m c = (.ok a, c')) : c'.ReadFrom n js table := by
  obtain ⟨x, t, -, hrun⟩ := hm
  rw [hrun c hc.aliases hc.joins] at h
  cases h
  exact hc.rooted t

/-- A step that only reads, and binds none of the tables that could become the root, yields the same from all clauses
that it can read from, and changes none of them. -/
theorem Lower.Reads.run_readFrom (hm : Reads n js table m) (h : ExceptT.run m d = (.ok a, c'))
    (hd : d.ReadFrom n js table) :
    d = c' ∧ ∀ c : Clauses, c.ReadFrom n js table → ExceptT.run m c = (.ok a, c) := by
  obtain ⟨x, hx⟩ := hm.run_eq
  rw [hx d hd.aliases hd.joins hd.settled] at h
  cases h
  exact ⟨rfl, fun c hc => hx c hc.aliases hc.joins hc.settled⟩

/-- What can be put together has a root, so no table can become it. -/
theorem Clauses.readFrom_of_assemble {t : Lowered} (h : c.assemble = .ok t) (table : Model → Prop) :
    c.ReadFrom c.aliases c.joins table := by
  obtain ⟨root, _, _, hroot, -⟩ := assemble_eq_ok_iff.mp h
  exact ⟨rfl, rfl, Or.inl (Option.isSome_of_eq_some hroot)⟩

end

namespace Expr

/-! ## Evaluating what was replaced -/

section

variable {n : Nat} {js : List Join} {table : Model → Prop} {env : Env} {c c' : Clauses}

theorem reads_rowOf_noOperator {e : Expr} (h : e.Every table NoOperator) : Reads n js table (rowOf env e) :=
  reads_rowOf e (Every.mono (fun _ => id) (fun _ _ => False.elim) e h) env

theorem reads_membersOf {members : List (String × Expr)} (h : EveryMember table NoOperator members) :
    Reads n js table (membersOf env members) :=
  (nodes_reads.membersOf members (EveryMember.mono (fun _ => id) (fun _ _ => False.elim) members h) env
    fun _ _ => trivial).1

/-- The value of a member of a new object is that of the first expression of that name. -/
theorem lookup_membersOf {members : List (String × Expr)} {list : List (String × Row)}
    (hmembers : EveryMember table NoOperator members) (hc : c.ReadFrom n js table)
    (h : ExceptT.run (membersOf env members) c = (.ok list, c')) {name : String} {v : Row}
    (hv : list.lookup name = some v) :
    ∃ e, members.lookup name = some e ∧
      ∀ c : Clauses, c.ReadFrom n js table → ExceptT.run (rowOf env e) c = (.ok v, c) := by
  induction members generalizing list c' with
  | nil =>
    cases h
    cases hv
  | cons member rest ih =>
    obtain ⟨key, e⟩ := member
    obtain ⟨m, c₁, hmember, hrun⟩ := run_bind_eq_ok.mp h
    obtain ⟨w, c₂, hw, ⟨⟩⟩ := run_bind_eq_ok.mp hmember
    obtain ⟨ms, c₃, hrest, ⟨⟩⟩ := run_bind_eq_ok.mp hrun
    obtain ⟨rfl, hvalue⟩ := (reads_rowOf_noOperator hmembers.1).run_readFrom hw hc
    rw [List.lookup_cons] at hv ⊢
    cases hname : name == key with
    | true =>
      rw [hname] at hv
      cases hv
      exact ⟨e, rfl, hvalue⟩
    | false =>
      rw [hname] at hv
      exact ih hmembers.2 hrest hv

end

/-- Rows of a source, and what they are projected to: each member has the value of its expression, and its static
type. -/
structure Projects (n : Nat) (js : List Join) (table : Model → Prop) (x : String) (rows : Row) (row : StaticType)
    (members : List (String × Expr)) (list : List (String × Row)) : Prop where
  types : ∀ name e, members.lookup name = some e → e.ty = row.member name
  values : ∀ name v, list.lookup name = some v → ∃ e, members.lookup name = some e ∧
    ∀ c : Clauses, c.ReadFrom n js table → ExceptT.run (rowOf [(x, rows)] e) c = (.ok v, c)

section

variable {n : Nat} {js : List Join} {table : Model → Prop} {x r typeName : String} {rows : Row} {row : StaticType}
  {members : List (String × Expr)} {list : List (String × Row)}

mutual

/-- What an expression yields for a projected row, it yields for the row below with members replaced. -/
theorem run_inline (h : Projects n js table x rows row members list) (b : Expr) (hb : b.ReadsMembers r row) {v : Row}
    {c c' : Clauses} (hc : c.ReadFrom n js table)
    (hrun : ExceptT.run (rowOf [(r, .projected typeName list)] b) c = (.ok v, c')) :
    ExceptT.run (rowOf [(x, rows)] (b.inline r members)) c = (.ok v, c') := by
  cases b with
  | value _ _ | captured _ _ | table _ _ => exact hrun
  | param p ty =>
    rw [rowOf, Lowering.lookup, List.lookup_cons, beq_false_of_ne hb] at hrun
    cases hrun
  | field target name ty =>
    obtain ⟨w, c₁, htarget, hmember⟩ := run_bind_eq_ok.mp hrun
    rw [inline]
    cases hparam : target.isParam r with
    | true =>
      cases target with
      | param p _ =>
        obtain rfl : p = r := of_decide_eq_true hparam
        rw [rowOf, Lowering.lookup, List.lookup_cons, beq_self_eq_true] at htarget
        cases htarget
        rw [memberOf, Entries.find] at hmember
        cases hlookup : list.lookup name with
        | none =>
          rw [hlookup] at hmember
          cases hmember
        | some w =>
          rw [hlookup] at hmember
          cases hmember
          obtain ⟨e, he, hvalue⟩ := h.values name _ hlookup
          rw [he]
          exact hvalue _ hc
      | _ => cases hparam
    | false =>
      rw [if_neg Bool.false_ne_true, rowOf, run_bind_of_ok (run_inline h target (hb.2 hparam) hc htarget)]
      exact hmember
  | binary op left right ty =>
    obtain ⟨lv, c₁, hleft, hrest⟩ := run_bind_eq_ok.mp hrun
    obtain ⟨rv, c₂, hright, hcombine⟩ := run_bind_eq_ok.mp hrest
    have hc₁ := (reads_rowOf left (ReadsMembers.every left hb.1) _).readFrom hc hleft
    rw [inline, rowOf, run_bind_of_ok (run_inline h left hb.1 hc hleft),
      run_bind_of_ok (run_inline h right hb.2 hc₁ hright), joinsTexts_inline h.types op hb.1 hb.2]
    exact hcombine
  | method target name args ty =>
    obtain ⟨receiver, c₁, htarget, hrest⟩ := run_bind_eq_ok.mp hrun
    obtain ⟨values, c₂, hargs, hmethod⟩ := run_bind_eq_ok.mp hrest
    have hc₁ := (reads_rowOf target (ReadsMembers.every target hb.1) _).readFrom hc htarget
    rw [inline, rowOf, run_bind_of_ok (run_inline h target hb.1 hc htarget),
      run_bind_of_ok (run_inlineAll h args hb.2 hc₁ hargs)]
    exact hmethod
  | operator _ _ _ => exact hb.elim
  | lambda _ body _ => exact run_inline h body hb hc hrun
  | quote inner _ => exact run_inline h inner hb hc hrun
  | object shape ms ty =>
    obtain ⟨values, c₁, hmembers, ⟨⟩⟩ := run_bind_eq_ok.mp hrun
    rw [inline, rowOf, run_bind_of_ok (run_inlineMembers h ms hb hc hmembers)]
    rfl

theorem run_inlineAll (h : Projects n js table x rows row members list) (es : List Expr)
    (hes : AllReadMembers r row es) {vs : List Row} {c c' : Clauses} (hc : c.ReadFrom n js table)
    (hrun : ExceptT.run (rowsOf [(r, .projected typeName list)] es) c = (.ok vs, c')) :
    ExceptT.run (rowsOf [(x, rows)] (inlineAll r members es)) c = (.ok vs, c') := by
  cases es with
  | nil => exact hrun
  | cons e rest =>
    obtain ⟨v, c₁, he, hrun⟩ := run_bind_eq_ok.mp hrun
    obtain ⟨vs, c₂, hrest, ⟨⟩⟩ := run_bind_eq_ok.mp hrun
    have hc₁ := (reads_rowOf e (ReadsMembers.every e hes.1) _).readFrom hc he
    rw [inlineAll, rowsOf, run_bind_of_ok (run_inline h e hes.1 hc he),
      run_bind_of_ok (run_inlineAll h rest hes.2 hc₁ hrest)]
    rfl

theorem run_inlineMembers (h : Projects n js table x rows row members list) (ms : List (String × Expr))
    (hms : MembersReadMembers r row ms) {vs : List (String × Row)} {c c' : Clauses} (hc : c.ReadFrom n js table)
    (hrun : ExceptT.run (membersOf [(r, .projected typeName list)] ms) c = (.ok vs, c')) :
    ExceptT.run (membersOf [(x, rows)] (inlineMembers r members ms)) c = (.ok vs, c') := by
  cases ms with
  | nil => exact hrun
  | cons m rest =>
    obtain ⟨v, c₁, hm, hrun⟩ := run_bind_eq_ok.mp hrun
    obtain ⟨vs, c₂, hrest, ⟨⟩⟩ := run_bind_eq_ok.mp hrun
    obtain ⟨hinlined, hc₁⟩ := run_inlineMember h m hms.1 hc hm
    rw [inlineMembers, membersOf, run_bind_of_ok hinlined, run_bind_of_ok (run_inlineMembers h rest hms.2 hc₁ hrest)]
    rfl

theorem run_inlineMember (h : Projects n js table x rows row members list) (m : String × Expr)
    (hm : MemberReadsMembers r row m) {v : String × Row} {c c' : Clauses} (hc : c.ReadFrom n js table)
    (hrun : ExceptT.run (memberRow [(r, .projected typeName list)] m) c = (.ok v, c')) :
    ExceptT.run (memberRow [(x, rows)] (inlineMember r members m)) c = (.ok v, c') ∧ c'.ReadFrom n js table := by
  cases m with
  | mk name e =>
    obtain ⟨w, c₁, he, ⟨⟩⟩ := run_bind_eq_ok.mp hrun
    rw [inlineMember, memberRow, run_bind_of_ok (run_inline h e hm hc he)]
    exact ⟨rfl, (reads_rowOf e (ReadsMembers.every e hm) _).readFrom hc he⟩

end

end

/-! ## Projections -/

/-- A function of one row, under any number of quotes. -/
def IsFunction (x : String) (body f : Expr) : Prop :=
  ∃ ty, f.unquote = .lambda [x] body ty

section

variable {x : String} {body f : Expr}

theorem IsFunction.functionBody? (h : IsFunction x body f) : Lowering.functionBody? f = some body := by
  obtain ⟨ty, h⟩ := h
  rw [Lowering.functionBody?, h]

theorem IsFunction.applyTo (h : IsFunction x body f) (row : Row) : f.applyTo [] [row] = rowOf [(x, row)] body := by
  obtain ⟨ty, h⟩ := h
  fun_induction unquote f with
  | case1 inner _ ih => exact ih h
  | case2 f _ =>
    rw [h]
    rfl

/-- A projection looks at the rows of its source, and at what its function makes of them. -/
theorem IsFunction.rowOf_select (h : IsFunction x body f) (source : Expr) (ty : StaticType) :
    rowOf [] (.operator "Select" [source, f] ty) =
      rowOf [] source >>= fun rows => selectAs body.objectShape body.ty (rowOf [(x, rows)] body) := by
  have hop : QueryOperator.ofName "Select" = some .select := rfl
  rw [rowOf, operandsOf_eq_map, List.map_cons, callOperator_cons hop (by decide)]
  show select (.ofExpr source) (.ofExpr f) = _
  rw [select_eq_selectAs h.functionBody?]
  refine bind_congr fun rows => ?_
  rw [← h.applyTo rows]
  rfl

end

/-- A projection of rows onto a model that has the types of its members. These are no operators, and have the static
types of scalars or none. -/
structure IsProjection (table : Model → Prop) (x : String) (m : Model) (members : List (String × Expr)) (p : Expr) :
    Prop where
  function : IsFunction x (.newObject m .named members) p
  model : ∃ identity, m = .anonymous identity (memberTypes members)
  scalars : ∀ member ∈ members, member.2.ty = .ofScalar member.2.ty.asScalar
  every : EveryMember table NoOperator members

/-- The projection onto a model, with the values of its members. -/
def ontoMembers (m : Model) (list : List (String × Row)) : Projection :=
  .object false m ⟨m.typeName, list⟩

/-- The declared type of a member is that of the first expression of that name. -/
theorem typeOf_anonymous (identity : Identity) (members : List (String × Expr)) (name : String) :
    (Model.anonymous identity (memberTypes members)).typeOf name = (members.lookup name).bind (·.ty.asScalar) := by
  induction members with
  | nil => rfl
  | cons member rest ih =>
    obtain ⟨key, e⟩ := member
    rw [Model.typeOf, Model.field] at ih ⊢
    show (List.find? _ (Model.recordField key key e.ty.asScalar :: _)).bind _ = _
    rw [List.lookup_cons]
    by_cases hname : key = name
    · rw [List.find?_cons_of_pos (by exact decide_eq_true hname), hname, beq_self_eq_true]
      rfl
    · rw [List.find?_cons_of_neg (by exact fun h => hname (of_decide_eq_true h)), beq_false_of_ne (Ne.symm hname)]
      exact ih

namespace IsProjection

variable {table : Model → Prop} {x : String} {m : Model} {members : List (String × Expr)} {p : Expr}

theorem types (hp : IsProjection table x m members p) (name : String) (e : Expr)
    (h : members.lookup name = some e) : e.ty = (StaticType.model m).member name := by
  obtain ⟨identity, rfl⟩ := hp.model
  obtain ⟨before, after, hmembers, -⟩ := List.lookup_eq_some_iff.mp h
  rw [StaticType.member, typeOf_anonymous, h]
  exact hp.scalars (name, e) (by simp [hmembers])

/-- A projection yields its members, evaluated for the rows below, and leaves them behind. -/
theorem run_select (hp : IsProjection table x m members p) {source : Expr} {ty : StaticType} {r : Row}
    {c c' : Clauses} :
    ExceptT.run (rowOf [] (.operator "Select" [source, p] ty)) c = (.ok r, c') ↔
      ∃ rows c₀ list c₁, ExceptT.run (rowOf [] source) c = (.ok rows, c₀) ∧
        ExceptT.run (membersOf [(x, rows)] members) c₀ = (.ok list, c₁) ∧
        r = .projected m.typeName list ∧ c' = c₁.project (ontoMembers m list) := by
  rw [hp.function.rowOf_select]
  constructor
  · intro h
    obtain ⟨rows, c₀, hrows, h⟩ := run_bind_eq_ok.mp h
    obtain ⟨_, c₁, hobject, h⟩ := run_bind_eq_ok.mp h
    obtain ⟨list, c₂, hlist, ⟨⟩⟩ := run_bind_eq_ok.mp hobject
    cases h
    exact ⟨rows, c₀, list, _, hrows, hlist, rfl, rfl⟩
  · rintro ⟨rows, c₀, list, c₁, hrows, hlist, rfl, rfl⟩
    rw [run_bind_of_ok hrows]
    refine run_bind_eq_ok.mpr ⟨.projected (objectTypeName (.model m)) list, c₁, ?_, rfl⟩
    exact run_bind_eq_ok.mpr ⟨list, c₁, hlist, rfl⟩

theorem projects (hp : IsProjection table x m members p) {n : Nat} {js : List Join} {rows : Row}
    {list : List (String × Row)} {c c' : Clauses} (hc : c.ReadFrom n js table)
    (h : ExceptT.run (membersOf [(x, rows)] members) c = (.ok list, c')) :
    Projects n js table x rows (.model m) members list :=
  ⟨hp.types, fun _ _ hv => lookup_membersOf hp.every hc h hv⟩

end IsProjection

/-! ## Filters and sorts after a projection -/

/-- An operator that hands on the rows of its source and looks at them through a function: a filter or a sort. -/
inductive RowStep where
  | filter
  | sort (descending restart : Bool)

namespace RowStep

/-- The step with this function. -/
def step (f : Expr) : RowStep → ClauseStep
  | filter => .filter f
  | sort descending restart => .sort descending restart f

/-- The operator with this function, on top of a source. -/
def expr (s : RowStep) (source f : Expr) (ty : StaticType) : Expr :=
  .operator (s.step f).name [source, f] ty

/-- What is left behind where the function yields this. -/
def markOf (value : Row) : RowStep → Lower Mark
  | filter => do
    let t ← scalarTerm value
    pure (.condition t)
  | sort descending restart => do
    let keys ← keyTerms value
    pure (.sort restart (keys.map fun t => ⟨t, descending⟩))

theorem mark_step (s : RowStep) (f : Expr) {rows : Row} (h : rows.isGroup = false) :
    (s.step f).mark rows = f.applyTo [] [rows] >>= fun value => s.markOf value := by
  cases s with
  | filter =>
    rw [step, ClauseStep.mark, h]
    rfl
  | sort descending restart => rfl

theorem reads_markOf {n : Nat} {js : List Join} {table : Model → Prop} (s : RowStep) (value : Row) :
    Reads n js table (s.markOf value) := by
  cases s with
  | filter => exact (reads_scalarTerm value).bind fun _ => reads_pure _
  | sort descending restart => exact (reads_keyTerms value).bind fun _ => reads_pure _

theorem rowOf_expr (s : RowStep) (source f : Expr) (ty : StaticType) :
    rowOf [] (s.expr source f ty) = (do
      let rows ← rowOf [] source
      let m ← (s.step f).mark rows
      update (m.on ·)
      pure rows) := by
  have hargs : [source, f] = source :: (s.step f).args := by cases s <;> rfl
  rw [expr, hargs, ClauseStep.rowOf_step]

end RowStep

section

variable {table : Model → Prop} {x r : String} {m : Model} {members : List (String × Expr)} {q p b f g : Expr}

/-- A function of projected rows that looks at them by their members only, and the same function of the rows below. -/
structure Inlines (x : String) (m : Model) (members : List (String × Expr)) (r : String) (b f g : Expr) : Prop where
  projected : IsFunction r b f
  below : IsFunction x (b.inline r members) g
  reads : b.ReadsMembers r (.model m)

/-- A projection leaves rows behind that look the same to whatever only reads. -/
theorem IsProjection.run_reads (hp : IsProjection table x m members p) (hroot : q.clausesOf.2.RootSettled table)
    {ty : StaticType} {v : Row} {c : Clauses}
    (h : ExceptT.run (rowOf [] (.operator "Select" [q, p] ty)) Clauses.empty = (.ok v, c)) :
    ∃ rows list c₀, ExceptT.run (rowOf [] q) Clauses.empty = (.ok rows, c₀) ∧
      c₀.ReadFrom c₀.aliases c₀.joins table ∧
      ExceptT.run (membersOf [(x, rows)] members) c₀ = (.ok list, c₀) ∧ v = .projected m.typeName list ∧
      c = c₀.project (ontoMembers m list) := by
  obtain ⟨rows, c₀, list, c₁, hrows, hlist, rfl, rfl⟩ := hp.run_select.mp h
  have hc₀ : c₀.ReadFrom c₀.aliases c₀.joins table := by
    rw [clausesOf, hrows] at hroot
    exact ⟨rfl, rfl, hroot⟩
  obtain ⟨rfl, -⟩ := (reads_membersOf hp.every).run_readFrom hlist hc₀
  exact ⟨rows, list, c₀, hrows, hc₀, hlist, rfl, rfl⟩

/-- What a function yields for projected rows, its counterpart yields for the rows below, and both bind the same table
as the root, if any. -/
theorem Inlines.run_body (h : Inlines x m members r b f g) (hp : IsProjection table x m members p) {rows v : Row}
    {list : List (String × Row)} {c₀ c₁ c₂ : Clauses} (hc₀ : c₀.ReadFrom c₀.aliases c₀.joins table)
    (hlist : ExceptT.run (membersOf [(x, rows)] members) c₀ = (.ok list, c₁))
    (hv : ExceptT.run (rowOf [(r, .projected m.typeName list)] b) (c₀.project (ontoMembers m list)) = (.ok v, c₂)) :
    ∃ t, c₂ = (c₀.project (ontoMembers m list)).rooted t ∧
      ExceptT.run (rowOf [(x, rows)] (b.inline r members)) c₀ = (.ok v, c₀.rooted t) := by
  obtain ⟨x, t, -, hread⟩ := reads_rowOf b (ReadsMembers.every b h.reads) [(r, .projected m.typeName list)]
  rw [hread _ rfl rfl] at hv
  cases hv
  exact ⟨t, rfl, run_inline (hp.projects hc₀ hlist) b h.reads hc₀ (hread c₀ rfl rfl)⟩

/-- No operator groups rows. -/
def NoGroupBy (name : String) (_ : List Expr) : Prop := QueryOperator.ofName name ≠ some .groupBy

/-- Rows that are groups come from an operator that makes groups. -/
theorem isGroup_eq_false (hq : q.Every (fun _ => True) NoGroupBy) {rows : Row} {c : Clauses}
    (h : ExceptT.run (rowOf [] q) Clauses.empty = (.ok rows, c)) : rows.isGroup = false := by
  have hallows : q.Every (fun _ => True) (Allows ⟨True, False⟩) :=
    Every.mono (fun _ => id) (fun _ _ hop => ⟨hop, fun _ _ => trivial, fun _ _ => trivial⟩) q hq
  have hmeets := ((nodes_meets _).rowOf q hallows [] (List.forall_mem_nil _) _ rows c Clauses.meets_empty h).1
  exact Bool.eq_false_iff.mpr hmeets.isGroup

/-- A filter or sort of projected rows leaves behind what it leaves behind below the projection. -/
theorem RowStep.run_inline (s : RowStep) (hq : q.Every (fun _ => True) NoGroupBy)
    (hroot : q.clausesOf.2.RootSettled table) (hp : IsProjection table x m members p)
    (h : Inlines x m members r b f g) {t u : StaticType} {v : Row} {c : Clauses}
    (hrun : ExceptT.run (rowOf [] (s.expr (.operator "Select" [q, p] t) f u)) Clauses.empty = (.ok v, c))
    (t' u' : StaticType) :
    ExceptT.run (rowOf [] (.operator "Select" [s.expr q g u', p] t')) Clauses.empty = (.ok v, c) := by
  rw [s.rowOf_expr] at hrun
  obtain ⟨row, c₁, hselect, hrun⟩ := run_bind_eq_ok.mp hrun
  obtain ⟨mark, c₂, hmark, ⟨⟩⟩ := run_bind_eq_ok.mp hrun
  obtain ⟨rows, list, c₀, hrows, hc₀, hlist, rfl, rfl⟩ := hp.run_reads hroot hselect
  rw [s.mark_step f rfl, h.projected.applyTo] at hmark
  obtain ⟨value, c₃, hvalue, hmark⟩ := run_bind_eq_ok.mp hmark
  obtain ⟨root, rfl, hinlined⟩ := h.run_body hp hc₀ hlist hvalue
  -- what the function yields is made a mark without binding a table
  have hread : Reads c₀.aliases c₀.joins (fun _ => False) (s.markOf value) := s.reads_markOf value
  obtain ⟨rfl, hmarkOf⟩ := hread.run_readFrom hmark ⟨rfl, rfl, Or.inr fun _ => id⟩
  have hmarkBelow := hmarkOf (c₀.rooted root) ⟨rfl, rfl, Or.inr fun _ => id⟩
  have hbelow : ExceptT.run (rowOf [] (s.expr q g u')) Clauses.empty = (.ok rows, mark.on (c₀.rooted root)) := by
    rw [s.rowOf_expr, run_bind_of_ok hrows, s.mark_step g (isGroup_eq_false hq hrows), h.below.applyTo, bind_assoc,
      run_bind_of_ok hinlined, run_bind_of_ok hmarkBelow]
    rfl
  obtain ⟨-, hmembers⟩ := (reads_membersOf hp.every).run_readFrom hlist hc₀
  exact hp.run_select.mpr ⟨rows, _, list, _, hbelow, hmembers _ ((hc₀.rooted root).on mark), rfl,
    by cases mark <;> rfl⟩

/-! ## A projection after a projection -/

/-- An object that is made is a projected row. -/
theorem projected_of_objectShape {env : Env} {shape : ShapeKind} (hshape : b.objectShape = some shape) {v : Row}
    {c c' : Clauses} (h : ExceptT.run (rowOf env b) c = (.ok v, c')) :
    ∃ typeName list, v = .projected typeName list := by
  cases b with
  | object shape ms ty =>
    obtain ⟨list, c₁, -, ⟨⟩⟩ := run_bind_eq_ok.mp h
    exact ⟨_, list, rfl⟩
  | _ => cases hshape

/-- A projection of projected rows either leaves behind what it leaves behind below the projection, which is an object
that it makes or a single scalar, or the rows stay what they are. -/
theorem Inlines.run_select (hroot : q.clausesOf.2.RootSettled table) (hp : IsProjection table x m members p)
    (h : Inlines x m members r b f g) {t u : StaticType} {v : Row} {c : Clauses}
    (hrun : ExceptT.run (rowOf [] (.operator "Select" [.operator "Select" [q, p] t, f] u)) Clauses.empty = (.ok v, c))
    (t' : StaticType) :
    ∃ projection, c.projection = some projection ∧
      if b.objectShape.isSome ∨ projection.isScalar then
        ExceptT.run (rowOf [] (.operator "Select" [q, g] t')) Clauses.empty = (.ok v, c)
      else q.clausesOf.2.root.isSome →
        ∃ row, ExceptT.run (rowOf [] (.operator "Select" [q, p] t)) Clauses.empty = (.ok row, c) := by
  rw [h.projected.rowOf_select] at hrun
  obtain ⟨row, c₁, hselect, hrun⟩ := run_bind_eq_ok.mp hrun
  obtain ⟨rows, list, c₀, hrows, hc₀, hlist, rfl, rfl⟩ := hp.run_reads hroot hselect
  rw [h.below.rowOf_select, run_bind_of_ok hrows, ty_inline hp.types h.reads]
  cases hshape : b.objectShape with
  | some shape =>
    -- the object that is made takes the place of the projection
    rw [hshape, selectAs] at hrun
    rw [objectShape_inline hshape]
    cases hmodel : b.ty.asModel with
    | none =>
      rw [hmodel] at hrun
      cases hrun
    | some model =>
      rw [hmodel] at hrun
      obtain ⟨value, c₂, hvalue, hrun⟩ := run_bind_eq_ok.mp hrun
      obtain ⟨typeName, list, rfl⟩ := projected_of_objectShape hshape hvalue
      obtain ⟨root, rfl, hinlined⟩ := h.run_body hp hc₀ hlist hvalue
      cases hrun
      refine ⟨_, rfl, ?_⟩
      rw [if_pos (by exact Or.inl rfl), selectAs]
      simp only [hmodel]
      rw [run_bind_of_ok hinlined]
      rfl
  | none =>
    rw [hshape, selectAs] at hrun
    obtain ⟨value, c₂, hvalue, hrun⟩ := run_bind_eq_ok.mp hrun
    obtain ⟨root, rfl, hinlined⟩ := h.run_body hp hc₀ hlist hvalue
    have hscalar (hvalue : ∀ typeName list, value ≠ .projected typeName list) :
        (b.inline r members).objectShape = none := by
      cases hinline : (b.inline r members).objectShape with
      | none => rfl
      | some shape =>
        obtain ⟨typeName, list, rfl⟩ := projected_of_objectShape hinline hinlined
        exact absurd rfl (hvalue typeName list)
    cases value with
    | term _ | scalar _ =>
      cases hrun
      refine ⟨_, rfl, ?_⟩
      rw [if_pos (by exact Or.inr rfl), hscalar nofun, selectAs, run_bind_of_ok hinlined]
      rfl
    | table _ | projected _ _ | joined _ =>
      -- whole rows stay what the first projection made of them
      cases hrun
      refine ⟨_, rfl, ?_⟩
      rw [if_neg (by simp [ontoMembers, Projection.isScalar])]
      intro hbound
      rw [clausesOf, hrows] at hbound
      have hbelow : (c₀.project (ontoMembers m list)).root.isSome := hbound
      rw [Clauses.rooted_of_root hbelow]
      exact ⟨_, hselect⟩
    | host _ | group _ _ => cases hrun

/-! ## Statements -/

theorem compile_of_run {e e' : Expr} {v v' : Row} {c : Clauses}
    (h : ExceptT.run (rowOf [] e) Clauses.empty = (.ok v, c))
    (h' : ExceptT.run (rowOf [] e') Clauses.empty = (.ok v', c)) (o : Options) : e.compile o = e'.compile o := by
  rw [compile_eq_lower, compile_eq_lower, lower_of_clausesOf_ok h, lower_of_clausesOf_ok h']

/-- What looks at the members of projected rows can look at the rows below instead, with members replaced. A filter or a
sort after a projection compiles to what it compiles to before the projection. So does a projection after a projection,
if it makes a new object or yields single scalars; else the rows stay what the first one made of them. The projected
members may not bind the table of the statement: a table is the root already, or they mention none. -/
theorem compile_inline (hq : q.Every (fun _ => True) NoGroupBy) (hroot : q.clausesOf.2.RootSettled table)
    (hp : IsProjection table x m members p) (h : Inlines x m members r b f g) (t u t' u' : StaticType)
    (o : Options) (compiled : Compiled) :
    (∀ s : RowStep, (s.expr (.operator "Select" [q, p] t) f u).compile o = .ok compiled →
      (Expr.operator "Select" [s.expr q g u', p] t').compile o = .ok compiled) ∧
    ((Expr.operator "Select" [.operator "Select" [q, p] t, f] u).compile o = .ok compiled →
      if b.objectShape.isSome ∨ compiled.shape.isScalar then
        (Expr.operator "Select" [q, g] t').compile o = .ok compiled
      else q.clausesOf.2.root.isSome → (Expr.operator "Select" [q, p] t').compile o = .ok compiled) := by
  constructor
  · intro s hcompile
    obtain ⟨lowered, hlower, -⟩ := lower_of_compile_eq_ok hcompile
    obtain ⟨v, c, hrun, -⟩ := lower_eq_ok hlower
    rw [← hcompile]
    exact compile_of_run (s.run_inline hq hroot hp h hrun t' u') hrun o
  · intro hcompile
    obtain ⟨lowered, hlower, rfl⟩ := lower_of_compile_eq_ok hcompile
    obtain ⟨v, c, hrun, hassemble⟩ := lower_eq_ok hlower
    obtain ⟨projection, hprojection, hrest⟩ := h.run_select hroot hp hrun t'
    have hshape : (lowered.compiled o).shape.isScalar = projection.isScalar :=
      Clauses.isScalar_of_assemble hprojection hassemble
    rw [hshape, ← hcompile]
    split at hrest
    · rename_i hselected
      rw [if_pos hselected]
      exact compile_of_run hrest hrun o
    · rename_i hkept
      rw [if_neg hkept]
      intro hbound
      obtain ⟨row, hrow⟩ := hrest hbound
      exact compile_of_run hrow hrun o

end

/-! ### Totals of orders -/

namespace Shop

/-- The members of `new { T = x.Total }`. -/
def totalMembers : List (String × Expr) :=
  [("T", (param "x" (.model order)).member "Total")]

/-- `x => new { T = x.Total }`. -/
def onlyTotal : Expr :=
  function ["x"] (.newObject (.anonymous .projection (memberTypes totalMembers)) .named totalMembers)

/-- `r.T`. -/
def total : Expr :=
  (param "r" (.model (.anonymous .projection (memberTypes totalMembers)))).member "T"

theorem isProjection_onlyTotal :
    IsProjection (fun _ => True) "x" (.anonymous .projection (memberTypes totalMembers)) totalMembers onlyTotal where
  function := ⟨_, rfl⟩
  model := ⟨_, rfl⟩
  scalars := List.forall_mem_singleton.mpr rfl
  every := ⟨trivial, trivial⟩

/-- `Orders.Select(x => new { T = x.Total }).OrderByDescending(r => r.T)`, and the sort before the projection. -/
theorem compile_inline_total :
    (ofTable order).Every (fun _ => True) NoGroupBy ∧ (ofTable order).clausesOf.2.RootSettled (fun _ => True) ∧
      IsProjection (fun _ => True) "x" (.anonymous .projection (memberTypes totalMembers)) totalMembers onlyTotal ∧
      Inlines "x" (.anonymous .projection (memberTypes totalMembers)) totalMembers "r" total
        (function ["r"] total) (memberOf order "Total") ∧
      ∃ compiled,
        ((RowStep.sort true true).expr (.operator "Select" [ofTable order, onlyTotal] .unknown)
          (function ["r"] total) .unknown).compile .standard = .ok compiled ∧
        (Expr.operator "Select" [(RowStep.sort true true).expr (ofTable order) (memberOf order "Total") .unknown,
          onlyTotal] .unknown).compile .standard = .ok compiled := by
  have hinlines : Inlines "x" (.anonymous .projection (memberTypes totalMembers)) totalMembers "r"
      total (function ["r"] total) (memberOf order "Total") :=
    ⟨⟨_, rfl⟩, ⟨_, rfl⟩, fun _ => rfl, nofun⟩
  refine ⟨trivial, Or.inl rfl, isProjection_onlyTotal, hinlines, _, rfl, ?_⟩
  exact (compile_inline (q := ofTable order) trivial (Or.inl rfl) isProjection_onlyTotal hinlines .unknown .unknown
    .unknown .unknown .standard _).1 (.sort true true) rfl

/-- `new { A = new { B = … } }.A`. -/
def nested (e : Expr) : Expr :=
  (newObject (.anonymous .projection [("A", none)]) .named
    [("A", .newObject (.anonymous .projection [("B", e.ty.asScalar)]) .named [("B", e)])]).member "A"

/-- The members of `new { N = Customers.Id }`. -/
def idMembers : List (String × Expr) :=
  [("N", (ofTable customer).member "Id")]

/-- `x => new { N = Customers.Id }`. -/
def onlyId : Expr :=
  function ["x"] (.newObject (.anonymous .projection (memberTypes idMembers)) .named idMembers)

/-- `x => Orders.Total`, for rows called by a name. -/
def totalOf (x : String) : Expr :=
  function [x] ((ofTable order).member "Total")

/-- A whole row that is selected from projected rows leaves these as they are, and from rows of a table those; and if
nothing is the root, the first of a sort and a projection to mention a table binds the table of the statement. -/
theorem not_compile_inline :
    (Inlines "x" (.anonymous .projection (memberTypes totalMembers)) totalMembers "r" (nested total)
        (function ["r"] (nested total)) (function ["x"] (nested ((param "x" (.model order)).member "Total"))) ∧
      ∃ a b, (Expr.operator "Select" [.operator "Select" [ofTable order, onlyTotal] .unknown,
          function ["r"] (nested total)] .unknown).compile .standard = .ok a ∧
        (Expr.operator "Select" [ofTable order,
          function ["x"] (nested ((param "x" (.model order)).member "Total"))] .unknown).compile .standard = .ok b ∧
        a.sql ≠ b.sql) ∧
    (IsProjection (fun _ => True) "x" (.anonymous .projection (memberTypes idMembers)) idMembers onlyId ∧
      Inlines "x" (.anonymous .projection (memberTypes idMembers)) idMembers "r"
        ((ofTable order).member "Total") (totalOf "r") (totalOf "x") ∧
      ∃ a b, ((RowStep.sort false true).expr (.operator "Select" [.ofValue (.int 3), onlyId] .unknown) (totalOf "r")
          .unknown).compile .standard = .ok a ∧
        (Expr.operator "Select" [(RowStep.sort false true).expr (.ofValue (.int 3)) (totalOf "x") .unknown,
          onlyId] .unknown).compile .standard = .ok b ∧ a.sql ≠ b.sql) := by
  refine ⟨⟨⟨⟨_, rfl⟩, ⟨_, rfl⟩, ?_⟩, _, _, rfl, rfl, by decide⟩,
    ⟨⟨_, rfl⟩, ⟨_, rfl⟩, List.forall_mem_singleton.mpr rfl, ⟨trivial, trivial⟩⟩,
    ⟨⟨_, rfl⟩, ⟨_, rfl⟩, ?_⟩, _, _, rfl, rfl, by decide⟩
  · exact ⟨nofun, fun _ => ⟨⟨⟨fun _ => rfl, nofun⟩, trivial⟩, trivial⟩⟩
  · exact ⟨nofun, fun _ => trivial⟩

end Shop

end Expr

end QueryChain
