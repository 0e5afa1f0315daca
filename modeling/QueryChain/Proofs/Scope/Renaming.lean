import QueryChain.Proofs.Scope.WellScoped

/-!
# Trees up to the names of parameters

Two trees are the same up to the names of parameters if every parameter of the one is bound by the same function as
that of the other, or free in both and of one name. Shadowing is as in lowering: the innermost function counts, and in
it the last parameter of a name.

An operator applies most of its functions, but it evaluates its source, the inner side of a join and a count as they
are: a function there is never given rows, and its parameters mean what they mean outside of it.

* `Expr.Renames`: trees that are the same up to the names of parameters.
* `Expr.Renames.mono`: only parameters that stand free in a tree matter.
* `Expr.AppliesFunctions`: trees in which a function that is never given rows does not look at its parameters.
-/

namespace QueryChain

/-! ## Parameters -/

/-- Two parameters are bound together, or free and of one name; the pairs are those of the functions around them,
innermost first. -/
def SameParam : List (String × String) → String → String → Prop
  | [], x, y => x = y
  | (a, b) :: pairs, x, y => x = a ∧ y = b ∨ x ≠ a ∧ y ≠ b ∧ SameParam pairs x y

theorem SameParam.head (a b : String) (pairs : List (String × String)) : SameParam ((a, b) :: pairs) a b :=
  Or.inl ⟨rfl, rfl⟩

/-- Outer pairs matter only for a parameter that no inner function binds. -/
theorem SameParam.mono_append {inner pairs pairs' : List (String × String)} {x y : String}
    (h : x ∉ inner.map Prod.fst → SameParam pairs x y → SameParam pairs' x y)
    (hxy : SameParam (inner ++ pairs) x y) : SameParam (inner ++ pairs') x y := by
  induction inner with
  | nil => exact h List.not_mem_nil hxy
  | cons p inner ih =>
    rcases hxy with hbound | ⟨hx, hy, hrest⟩
    · exact Or.inl hbound
    · refine Or.inr ⟨hx, hy, ih (fun hinner => h ?_) hrest⟩
      rw [List.map_cons, List.mem_cons, not_or]
      exact ⟨hx, hinner⟩

/-- A parameter that no inner function binds is bound outside. -/
theorem SameParam.of_append {inner pairs : List (String × String)} {x y : String}
    (hx : x ∉ inner.map Prod.fst) (hxy : SameParam (inner ++ pairs) x y) : SameParam pairs x y := by
  induction inner with
  | nil => exact hxy
  | cons p inner ih =>
    rw [List.map_cons, List.mem_cons, not_or] at hx
    rcases hxy with ⟨rfl, -⟩ | ⟨-, -, hrest⟩
    · exact absurd rfl hx.1
    · exact ih hx.2 hrest

/-- The pairs inside two functions. -/
def bindPairs (params params' : List String) (pairs : List (String × String)) : List (String × String) :=
  (params.zip params').reverse ++ pairs

theorem map_fst_zip_reverse {params params' : List String} (h : params.length = params'.length) :
    (params.zip params').reverse.map Prod.fst = params.reverse := by
  rw [List.map_reverse, List.map_fst_zip (Nat.le_of_eq h)]

namespace Expr

/-! ## Trees -/

mutual

/-- Trees that are the same up to the names of parameters; the pairs are those of the functions around them. -/
inductive Renames : List (String × String) → Expr → Expr → Prop
  | value {pairs} (v : Value) (ty : StaticType) : Renames pairs (.value v ty) (.value v ty)
  | captured {pairs} (c : Captured) (ty : StaticType) : Renames pairs (.captured c ty) (.captured c ty)
  | table {pairs} (m : Model) (ty : StaticType) : Renames pairs (.table m ty) (.table m ty)
  | param {pairs} {x y : String} (h : SameParam pairs x y) (ty : StaticType) :
      Renames pairs (.param x ty) (.param y ty)
  | field {pairs} {target target' : Expr} (h : Renames pairs target target') (name : String) (ty : StaticType) :
      Renames pairs (.field target name ty) (.field target' name ty)
  | binary {pairs} (op : BinaryOp) {l l' r r' : Expr} (hl : Renames pairs l l') (hr : Renames pairs r r')
      (ty : StaticType) : Renames pairs (.binary op l r ty) (.binary op l' r' ty)
  | method {pairs} {target target' : Expr} (h : Renames pairs target target') (name : String)
      {args args' : List Expr} (hargs : AllRename pairs args args') (ty : StaticType) :
      Renames pairs (.method target name args ty) (.method target' name args' ty)
  | operator {pairs} (name : String) {args args' : List Expr} (hargs : AllRename pairs args args')
      (ty : StaticType) : Renames pairs (.operator name args ty) (.operator name args' ty)
  | lambda {pairs} {params params' : List String} (hlength : params.length = params'.length) {body body' : Expr}
      (h : Renames (bindPairs params params' pairs) body body') (ty : StaticType) :
      Renames pairs (.lambda params body ty) (.lambda params' body' ty)
  | quote {pairs} {inner inner' : Expr} (h : Renames pairs inner inner') (ty : StaticType) :
      Renames pairs (.quote inner ty) (.quote inner' ty)
  | object {pairs} (shape : ShapeKind) {members members' : List (String × Expr)}
      (h : MembersRename pairs members members') (ty : StaticType) :
      Renames pairs (.object shape members ty) (.object shape members' ty)

/-- Lists of such trees. -/
inductive AllRename : List (String × String) → List Expr → List Expr → Prop
  | nil {pairs} : AllRename pairs [] []
  | cons {pairs} {e e' : Expr} {rest rest' : List Expr} (h : Renames pairs e e')
      (hrest : AllRename pairs rest rest') : AllRename pairs (e :: rest) (e' :: rest')

/-- Members of new objects, of one name and such trees. -/
inductive MembersRename : List (String × String) → List (String × Expr) → List (String × Expr) → Prop
  | nil {pairs} : MembersRename pairs [] []
  | cons {pairs} (name : String) {e e' : Expr} {rest rest' : List (String × Expr)} (h : Renames pairs e e')
      (hrest : MembersRename pairs rest rest') : MembersRename pairs ((name, e) :: rest) ((name, e') :: rest')

end

mutual

/-- Whether a parameter stands free in a tree. -/
def Mentions (x : String) : Expr → Prop
  | .value _ _ | .captured _ _ | .table _ _ => False
  | .param name _ => x = name
  | .field target _ _ => Mentions x target
  | .binary _ l r _ => Mentions x l ∨ Mentions x r
  | .method target _ args _ => Mentions x target ∨ AnyMentions x args
  | .operator _ args _ => AnyMentions x args
  | .lambda params body _ => x ∉ params ∧ Mentions x body
  | .quote inner _ => Mentions x inner
  | .object _ members _ => MembersMention x members

/-- Whether a parameter stands free in one of several trees. -/
def AnyMentions (x : String) : List Expr → Prop
  | [] => False
  | e :: rest => Mentions x e ∨ AnyMentions x rest

/-- Whether a parameter stands free in a member of a new object. -/
def MembersMention (x : String) : List (String × Expr) → Prop
  | [] => False
  | member :: rest => MemberMentions x member ∨ MembersMention x rest

/-- Whether a parameter stands free in a member of a new object. -/
def MemberMentions (x : String) : String × Expr → Prop
  | (_, e) => Mentions x e

end

mutual

/-- Only parameters that stand free in a tree matter. -/
theorem Renames.mono {pairs pairs' : List (String × String)} {e e' : Expr}
    (he : Renames pairs e e') (h : ∀ x y, e.Mentions x → SameParam pairs x y → SameParam pairs' x y) :
    Renames pairs' e e' := by
  cases he with
  | value v ty => exact .value v ty
  | captured c ty => exact .captured c ty
  | table m ty => exact .table m ty
  | param hxy ty => exact .param (h _ _ rfl hxy) ty
  | field htarget name ty => exact .field (htarget.mono h) name ty
  | binary op hl hr ty =>
    exact .binary op (hl.mono fun x y hx => h x y (Or.inl hx)) (hr.mono fun x y hx => h x y (Or.inr hx)) ty
  | method htarget name hargs ty =>
    exact .method (htarget.mono fun x y hx => h x y (Or.inl hx)) name
      (hargs.mono fun x y hx => h x y (Or.inr hx)) ty
  | operator name hargs ty => exact .operator name (hargs.mono h) ty
  | lambda hlength hbody ty =>
    refine .lambda hlength (hbody.mono fun x y hx hxy => hxy.mono_append fun hparams => h x y ⟨?_, hx⟩) ty
    rwa [map_fst_zip_reverse hlength, List.mem_reverse] at hparams
  | quote hinner ty => exact .quote (hinner.mono h) ty
  | object shape hmembers ty => exact .object shape (hmembers.mono h) ty

theorem AllRename.mono {pairs pairs' : List (String × String)} {es es' : List Expr}
    (hes : AllRename pairs es es') (h : ∀ x y, AnyMentions x es → SameParam pairs x y → SameParam pairs' x y) :
    AllRename pairs' es es' := by
  cases hes with
  | nil => exact .nil
  | cons he hrest =>
    exact .cons (he.mono fun x y hx => h x y (Or.inl hx)) (hrest.mono fun x y hx => h x y (Or.inr hx))

theorem MembersRename.mono {pairs pairs' : List (String × String)} {members members' : List (String × Expr)}
    (hmembers : MembersRename pairs members members')
    (h : ∀ x y, MembersMention x members → SameParam pairs x y → SameParam pairs' x y) :
    MembersRename pairs' members members' := by
  cases hmembers with
  | nil => exact .nil
  | cons name he hrest =>
    exact .cons name (he.mono fun x y hx => h x y (Or.inl hx)) (hrest.mono fun x y hx => h x y (Or.inr hx))

end

/-- The body of a function that does not look at its parameters is the same outside of it. -/
theorem Renames.of_bindPairs {params params' : List String} (hlength : params.length = params'.length)
    {pairs : List (String × String)} {body body' : Expr} (hunused : ∀ x ∈ params, ¬ body.Mentions x)
    (h : Renames (bindPairs params params' pairs) body body') : Renames pairs body body' := by
  refine h.mono fun x y hx hxy => hxy.of_append ?_
  rw [map_fst_zip_reverse hlength, List.mem_reverse]
  exact fun hparam => hunused x hparam hx

/-! ## What does not depend on names -/

theorem Renames.ty_eq {pairs : List (String × String)} {e e' : Expr} (h : Renames pairs e e') : e.ty = e'.ty := by
  cases h <;> rfl

theorem Renames.kindName_eq {pairs : List (String × String)} {e e' : Expr} (h : Renames pairs e e') :
    e.kindName = e'.kindName := by
  cases h <;> rfl

theorem AllRename.of_cons {pairs : List (String × String)} {e : Expr} {rest es' : List Expr}
    (h : AllRename pairs (e :: rest) es') :
    ∃ e' rest', es' = e' :: rest' ∧ Renames pairs e e' ∧ AllRename pairs rest rest' := by
  cases h with
  | cons he hrest => exact ⟨_, _, rfl, he, hrest⟩

theorem Renames.isRowDerived_eq {pairs : List (String × String)} {e e' : Expr} (h : Renames pairs e e') :
    e.isRowDerived = e'.isRowDerived := by
  cases e with
  | field target name ty =>
    cases h with
    | field htarget => exact (Renames.isRowDerived_eq htarget :)
  | method target name args ty =>
    cases h with
    | method htarget => exact (Renames.isRowDerived_eq htarget :)
  | operator name args ty =>
    cases h with
    | operator _ hargs =>
      cases args with
      | nil =>
        cases hargs
        rfl
      | cons source rest =>
        obtain ⟨source', rest', rfl, hsource, -⟩ := hargs.of_cons
        exact (Renames.isRowDerived_eq hsource :)
  | binary op l r ty =>
    cases h with
    | binary _ hl hr =>
      rw [isRowDerived, isRowDerived, Renames.isRowDerived_eq hl, Renames.isRowDerived_eq hr]
  | _ =>
    cases h
    rfl
termination_by e

theorem Renames.joinsTexts_eq {pairs : List (String × String)} {l l' r r' : Expr} (hl : Renames pairs l l')
    (hr : Renames pairs r r') (op : BinaryOp) : Lowering.joinsTexts op l r = Lowering.joinsTexts op l' r' := by
  rw [Lowering.joinsTexts, Lowering.joinsTexts, hl.ty_eq, hr.ty_eq]

/-- Both are functions, and their bodies are the same up to names, or neither is one. -/
theorem Renames.functionBody? {pairs : List (String × String)} {e e' : Expr} (h : Renames pairs e e') :
    Lowering.functionBody? e = none ∧ Lowering.functionBody? e' = none ∨
      ∃ inner body body', Lowering.functionBody? e = some body ∧ Lowering.functionBody? e' = some body' ∧
        Renames inner body body' := by
  cases e with
  | lambda params body ty =>
    cases h with
    | lambda _ hbody => exact Or.inr ⟨_, _, _, rfl, rfl, hbody⟩
  | quote inner ty =>
    cases h with
    | quote hinner => exact (Renames.functionBody? hinner :)
  | _ =>
    cases h
    exact Or.inl ⟨rfl, rfl⟩

/-! ## Functions that are never given rows -/

mutual

/-- A function that is evaluated and not applied does not look at its parameters. -/
def AppliesFunctions : Expr → Prop
  | .value _ _ | .captured _ _ | .table _ _ | .param _ _ => True
  | .field target _ _ => AppliesFunctions target
  | .binary _ l r _ => AppliesFunctions l ∧ AppliesFunctions r
  | .method target _ args _ => AppliesFunctions target ∧ AllApply args
  | .operator name args _ =>
    match QueryOperator.ofName name with
    | some op => ArgumentsApply op 0 args
    | none => True
  | .lambda params body _ => (∀ x ∈ params, ¬ body.Mentions x) ∧ AppliesFunctions body
  | .quote inner _ => AppliesFunctions inner
  | .object _ members _ => MembersApply members

/-- The same for the body of a function that is applied. -/
def BodyApplies : Expr → Prop
  | .quote inner _ => BodyApplies inner
  | .lambda _ body _ => AppliesFunctions body
  | _ => True

/-- The same for several trees. -/
def AllApply : List Expr → Prop
  | [] => True
  | e :: rest => AppliesFunctions e ∧ AllApply rest

/-- The same for the arguments of an operator; the first stands at a position. -/
def ArgumentsApply (op : QueryOperator) (position : Nat) : List Expr → Prop
  | [] => True
  | e :: rest =>
    (match op.use position with
      | .value => AppliesFunctions e
      | .function _ => BodyApplies e
      | .ignored => True) ∧ ArgumentsApply op (position + 1) rest

/-- The same for the members of a new object. -/
def MembersApply : List (String × Expr) → Prop
  | [] => True
  | member :: rest => MemberApplies member ∧ MembersApply rest

/-- The same for a member of a new object. -/
def MemberApplies : String × Expr → Prop
  | (_, e) => AppliesFunctions e

end

end Expr

end QueryChain
