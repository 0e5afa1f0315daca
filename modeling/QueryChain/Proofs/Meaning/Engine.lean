import QueryChain.Lowering.Evaluate

/-!
# What expressions and terms come to

An expression over rows comes to a scalar or a record, and an SQL term comes to a scalar, once it is known what
tables hold. How scalars are computed, compared and tested is left to an engine: the lemmas hold for all
engines, so they never depend on what a database makes of nulls, texts or numbers.

* `Engine.item`: what an expression over rows comes to.
* `Term.value`: what a term comes to.
* `Expr.isRowExpr`: expressions over rows, which have no table, operator or function in them.
-/

namespace QueryChain

/-- The scalars of a database, and what it does with them. -/
structure Engine where
  Datum : Type
  ofValue : Value → Datum
  nullTest (negated : Bool) (d : Datum) : Datum
  binary : BinaryOp → Datum → Datum → Datum
  concat : Datum → Datum → Datum
  length : Datum → Datum
  toText : Datum → Datum
  change : TextChange → Datum → Datum
  /-- Whether a text holds another, as a scalar. -/
  like (affix : Affix) (text needle : Datum) : Datum
  dateAdd (part : DatePart) (amount d : Datum) : Datum
  /-- Whether a condition that comes to this keeps a row. -/
  holds : Datum → Bool
  /-- Whether a scalar is sorted before another. -/
  less : Datum → Datum → Prop

/-- A truth value as a number. -/
def truth (b : Bool) : Int := if b then 1 else 0

/-- An operator on whole numbers; zero is false. -/
def BinaryOp.onNumbers (op : BinaryOp) (a b : Int) : Int :=
  match op with
  | .and => truth (a != 0 && b != 0)
  | .or => truth (a != 0 || b != 0)
  | .add => a + b
  | .sub => a - b
  | .mul => a * b
  | .div => a / b
  | .eq => truth (a == b)
  | .ne => truth (a != b)
  | .lt => truth (a < b)
  | .le => truth (a ≤ b)
  | .gt => truth (b < a)
  | .ge => truth (b ≤ a)

/-- A small engine, of whole numbers only: whatever is no number is zero. -/
def Engine.numbers : Engine where
  Datum := Int
  ofValue
    | .int n => n.toInt
    | .bool b => truth b
    | _ => 0
  nullTest negated _ := truth negated
  binary := BinaryOp.onNumbers
  concat a b := a + b
  length d := d
  toText d := d
  change _ d := d
  like _ a b := truth (a == b)
  dateAdd _ amount d := amount + d
  holds d := d != 0
  less a b := a < b

instance : Inhabited Engine := ⟨.numbers⟩

/-- What an expression over rows comes to. -/
inductive Item (D : Type) where
  /-- A scalar known before the query runs. -/
  | known (v : Value)
  /-- A captured object, of use for its members only. -/
  | host (c : Captured)
  | datum (d : D)
  | record (members : List (String × Item D))

namespace Item

variable {D : Type}

/-- What is captured: scalars are known. -/
def ofCaptured : Captured → Item D
  | .scalar v => .known v
  | c => .host c

/-- The scalar, if it is known. -/
def asKnown : Item D → Option Value
  | .known v => some v
  | _ => none

/-- Whether this is the null value. -/
def isNull : Item D → Bool
  | .known .null => true
  | _ => false

end Item

/-- A row of a table: the scalar in every column. -/
abbrev Engine.Record (E : Engine) : Type := String → E.Datum

/-- What the tables hold. -/
abbrev Engine.Database (E : Engine) : Type := String → List E.Record

/-- The records that the aliases of a statement stand for. -/
abbrev Engine.Scope (E : Engine) : Type := Nat → E.Record

namespace Engine

variable (E : Engine)

def null : E.Datum := E.ofValue .null

/-- The scalar that an item is. -/
def scalar : Item E.Datum → E.Datum
  | .known v => E.ofValue v
  | .datum d => d
  | .host _ | .record _ => E.null

/-- The scalars of an item: itself, or its members. -/
def cells : Item E.Datum → List E.Datum
  | .record members => members.map fun (_, i) => E.scalar i
  | i => [E.scalar i]

/-- A row of the table of a model: its fields, read from their columns. -/
def ofRecord (m : Model) (row : E.Record) : Item E.Datum :=
  .record (m.fields.map fun f => (f.name, .datum (row f.column)))

/-! ## Expressions -/

/-- A member; the only member of a scalar is its length. -/
def member (target : Item E.Datum) (name : String) : Item E.Datum :=
  match target with
  | .record members => (members.lookup name).getD (.datum E.null)
  | .host c =>
    match c.member name with
    | .ok c => .ofCaptured c
    | .error _ => .datum E.null
  | .known (.text s) => .known (.int (Int64.ofNat s.length))
  | .known _ => .datum E.null
  | .datum d => .datum (E.length d)

/-- Two items joined by an operator; a comparison with the null value is a null test. -/
def combine (op : BinaryOp) (concat : Bool) (l r : Item E.Datum) : Item E.Datum :=
  if (op = .eq ∨ op = .ne) ∧ r.isNull then .datum (E.nullTest (op = .ne) (E.scalar l))
  else if (op = .eq ∨ op = .ne) ∧ l.isNull then .datum (E.nullTest (op = .ne) (E.scalar r))
  else if concat then .datum (E.concat (E.scalar l) (E.scalar r))
  else .datum (E.binary op (E.scalar l) (E.scalar r))

/-- A method of a scalar. -/
def method (name : String) (d : E.Datum) (args : List E.Datum) : E.Datum :=
  match Method.ofName name, args with
  | some .toText, _ => E.toText d
  | some (.change c), _ => E.change c d
  | some (.test affix), [needle] => E.like affix d needle
  | some (.add part), [amount] => E.dateAdd part amount d
  | _, _ => E.null

/-- A method: of known values it is carried out before the query runs. -/
def call (name : String) (receiver : Item E.Datum) (args : List (Item E.Datum)) : Item E.Datum :=
  match receiver.asKnown, args.mapM Item.asKnown with
  | some v, some values =>
    match v.invoke name values with
    | .ok w => .known w
    | .error _ => .datum E.null
  | _, _ => .datum (E.method name (E.scalar receiver) (args.map E.scalar))

mutual

/-- What an expression over rows comes to, given what its parameters stand for. -/
def item (env : List (String × Item E.Datum)) : Expr → Item E.Datum
  | .value v _ => .known v
  | .captured c _ => .ofCaptured c
  | .param name _ => (env.lookup name).getD (.datum E.null)
  | .field target name _ => E.member (item env target) name
  | .binary op l r _ => E.combine op (Lowering.joinsTexts op l r) (item env l) (item env r)
  | .method target name args _ => E.call name (item env target) (items env args)
  | .object _ members _ => .record (memberItems env members)
  | .table .. | .operator .. | .lambda .. | .quote .. => .datum E.null

/-- What each of several expressions comes to. -/
def items (env : List (String × Item E.Datum)) : List Expr → List (Item E.Datum)
  | [] => []
  | e :: rest => item env e :: items env rest

/-- The members of a new object. -/
def memberItems (env : List (String × Item E.Datum)) : List (String × Expr) → List (String × Item E.Datum)
  | [] => []
  | member :: rest => memberItem env member :: memberItems env rest

/-- A member of a new object. -/
def memberItem (env : List (String × Item E.Datum)) : String × Expr → String × Item E.Datum
  | (name, e) => (name, item env e)

end

/-- What a function comes to for given rows, under any number of quotes. -/
def apply (rows : List (Item E.Datum)) : Expr → Item E.Datum
  | .quote f _ => apply rows f
  | .lambda params body _ => E.item (params.zip rows).reverse body
  | _ => .datum E.null

/-- Whether a row meets a condition. -/
def keeps (predicate : Expr) (row : Item E.Datum) : Bool :=
  E.holds (E.scalar (E.apply [row] predicate))

/-- Whether two keys are equal, scalar by scalar. -/
def agree (l r : Item E.Datum) : Bool :=
  ((E.cells l).zip (E.cells r)).all fun (a, b) => E.holds (E.binary .eq a b)

/-- The number that an expression without parameters comes to; a negative one counts as zero. -/
def number (e : Expr) : Nat :=
  match E.item [] e with
  | .known (.int n) => n.toInt.toNat
  | _ => 0

end Engine

/-! ## Expressions over rows -/

namespace Expr

mutual

/-- Whether an expression has no table, operator or function in it. -/
def isRowExpr : Expr → Bool
  | .value .. | .captured .. | .param .. => true
  | .field target _ _ => isRowExpr target
  | .binary _ l r _ => isRowExpr l && isRowExpr r
  | .method target _ args _ => isRowExpr target && areRowExprs args
  | .object _ members _ => membersAreRowExprs members
  | .table .. | .operator .. | .lambda .. | .quote .. => false

/-- Whether none of several expressions has a table, operator or function in it. -/
def areRowExprs : List Expr → Bool
  | [] => true
  | e :: rest => isRowExpr e && areRowExprs rest

/-- Whether no member has a table, operator or function in it. -/
def membersAreRowExprs : List (String × Expr) → Bool
  | [] => true
  | member :: rest => memberIsRowExpr member && membersAreRowExprs rest

/-- Whether a member has no table, operator or function in it. -/
def memberIsRowExpr : String × Expr → Bool
  | (_, e) => isRowExpr e

end

/-- Whether this is a function over rows, under any number of quotes. -/
def isRowFunction : Expr → Bool
  | .quote f _ => isRowFunction f
  | .lambda _ body _ => isRowExpr body
  | _ => false

end Expr

/-! ## Terms -/

/-- What a term comes to. A fold is over several rows, so it has no value in one. -/
def Term.value (E : Engine) (s : E.Scope) : Term → E.Datum
  | .column label name => s label name
  | .literal v => E.ofValue v
  | .nullTest negated t => E.nullTest negated (value E s t)
  | .binary op l r => E.binary op (value E s l) (value E s r)
  | .concat l r => E.concat (value E s l) (value E s r)
  | .length t => E.length (value E s t)
  | .toText t => E.toText (value E s t)
  | .change c t => E.change c (value E s t)
  | .likeText t affix needle => E.like affix (value E s t) (E.ofValue (.text needle))
  | .likeTerm t affix needle => E.like affix (value E s t) (value E s needle)
  | .dateAdd part amount t => E.dateAdd part (value E s amount) (value E s t)
  | .countAll | .countWhere _ | .fold _ _ => E.null

/-- A term looks at its own columns only. -/
theorem Term.value_congr {E : Engine} {s s' : E.Scope} {t : Term}
    (h : ∀ p ∈ t.columns, s p.1 = s' p.1) : t.value E s = t.value E s' := by
  induction t with
  | column label name => simpa [Term.columns, Term.value] using congrFun (h (label, name) (by simp [Term.columns])) name
  | literal v => rfl
  | countAll => rfl
  | countWhere t _ => rfl
  | fold f t _ => rfl
  | nullTest negated t ih => simp only [Term.value, ih h]
  | length t ih => simp only [Term.value, ih h]
  | toText t ih => simp only [Term.value, ih h]
  | change c t ih => simp only [Term.value, ih h]
  | likeText t affix needle ih => simp only [Term.value, ih h]
  | binary op l r ihl ihr =>
    rw [Term.value, Term.value, ihl fun p hp => h p (List.mem_append_left _ hp),
      ihr fun p hp => h p (List.mem_append_right _ hp)]
  | concat l r ihl ihr =>
    rw [Term.value, Term.value, ihl fun p hp => h p (List.mem_append_left _ hp),
      ihr fun p hp => h p (List.mem_append_right _ hp)]
  | likeTerm l affix r ihl ihr =>
    rw [Term.value, Term.value, ihl fun p hp => h p (List.mem_append_left _ hp),
      ihr fun p hp => h p (List.mem_append_right _ hp)]
  | dateAdd part l r ihl ihr =>
    rw [Term.value, Term.value, ihl fun p hp => h p (List.mem_append_left _ hp),
      ihr fun p hp => h p (List.mem_append_right _ hp)]

end QueryChain
