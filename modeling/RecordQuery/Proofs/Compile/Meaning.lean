import RecordQuery.Proofs.Compile.Reading

/-!
# Conditions are as true as the expressions they come from

`Reading.truth` is the truth of a condition on a row, with the values of the parameters of the
statement; `Expr.truth` that of an expression, whose constants are the values they are bound as.
Both are three-valued: what is asked of null is unknown, unless it is asked whether it is null. The
text of an expression has one reading, the image of the expression, and is as true as it
(`toCondition_reads_image`).
-/

namespace RecordQuery

open Sql

inductive Truth where
  | no | unknown | yes
  deriving DecidableEq, Repr

namespace Truth

def ofBool (b : Bool) : Truth := if b then yes else no

def and : Truth → Truth → Truth
  | no, _ => no
  | _, no => no
  | yes, yes => yes
  | _, _ => unknown

def or : Truth → Truth → Truth
  | yes, _ => yes
  | _, yes => yes
  | no, no => no
  | _, _ => unknown

def not : Truth → Truth
  | no => yes
  | unknown => unknown
  | yes => no

end Truth

/-- How a storage compares values that are not null, and what number digits are. -/
structure Storage where
  compare : Comparison → Value → Value → Bool
  like : Value → Value → Bool
  numeral : String → Value

namespace Storage

/-- What is asked of null is unknown. -/
def ask (test : Value → Value → Bool) (a b : Value) : Truth :=
  if a.isNull || b.isNull then .unknown else .ofBool (test a b)

/-- The value is 1. -/
def isOne (db : Storage) (v : Value) : Truth := ask (db.compare .equal) v (db.numeral "1")

end Storage

/-- The values of a row by alias and column. -/
abbrev RowValues := String → String → Value

/-- The value of the first parameter of a name. -/
def Param.lookup (ps : List Param) (name : String) : Value :=
  (ps.find? (·.name == name)).elim .null (·.value)

/-! ## Truth of a reading -/

namespace Sql

section

variable (db : Storage) (row : RowValues) (ps : List Param)

def Operand.value : Operand → Value
  | column label name => row label name
  | placeholder name => Param.lookup ps name
  | numeral digits => db.numeral digits

def Test.truth (v : Value) : Test → Truth
  | compare op r => Storage.ask (db.compare op) v (r.value db row ps)
  | isNull => .ofBool v.isNull
  | isNotNull => .ofBool !v.isNull
  | like p => Storage.ask db.like v (p.value db row ps)

def Reading.truth : Reading → Truth
  | test v t => t.truth db row ps (v.value db row ps)
  | and l r => l.truth.and r.truth
  | or l r => l.truth.or r.truth
  | not r => r.truth.not

end

end Sql

/-! ## Truth of an expression -/

namespace Expr

section

variable (db : Storage) (s : Scope) (row : RowValues)

/-- The value of a field or constant, null for anything else. -/
def value : Expr → Value
  | field r =>
    match s.resolve r with
    | .ok (.column label name) => row label name
    | _ => .null
  | constant v => v.bound
  | _ => .null

/-- What a comparison with null says of a value. -/
def nullTruth (op : Comparison) (v : Value) : Truth :=
  match op with
  | .equal => .ofBool v.isNull
  | .notEqual => .ofBool !v.isNull
  | _ => .unknown

/-- The truth of an expression on a row, unknown for one that is no condition. -/
def truth : Expr → Truth
  | binary (.logical .and) l r => l.truth.and r.truth
  | binary (.logical .or) l r => l.truth.or r.truth
  | binary (.comparison op) l r =>
    if r.isNullConstant then nullTruth op (l.value s row)
    else if l.isNullConstant then nullTruth op (r.value s row)
    else Storage.ask (db.compare op) (l.value s row) (r.value s row)
  | negation e => e.truth.not
  | call .isNull e => .ofBool (e.value s row).isNull
  | call .isNotNull e => .ofBool !(e.value s row).isNull
  | callWith .isNull e _ => .ofBool (e.value s row).isNull
  | callWith .isNotNull e _ => .ofBool !(e.value s row).isNull
  | callWith (.text m) e (constant (.text x)) =>
    Storage.ask db.like (e.value s row) (.text (likePattern m x))
  | field r => db.isOne ((field r).value s row)
  | constant v => db.isOne ((constant v).value s row)
  | _ => .unknown

end

end Expr

/-! ## Parameters -/

theorem Param.lookup_number (vs : List Value) (i : Nat) :
    lookup (number vs) (placeholder i) = (vs[i]?).elim .null Value.bound := by
  have found (vs : List Value) (k i : Nat) :
      ((vs.zipIdx k).map fun p => (⟨placeholder p.2, p.1.bound⟩ : Param)).find?
          (·.name == placeholder (k + i))
        = vs[i]?.map fun v => ⟨placeholder (k + i), v.bound⟩ := by
    induction vs generalizing k i with
    | nil => rfl
    | cons v vs ih =>
      rw [List.zipIdx_cons, List.map_cons, List.find?_cons]
      cases i with
      | zero => simp
      | succ i =>
        -- a later parameter has a greater number, so the first one is passed over
        have other : (placeholder k == placeholder (k + (i + 1))) = false := by
          refine beq_eq_false_iff_ne.mpr fun h => ?_
          have := placeholder_injective h
          omega
        have next := ih (k + 1) i
        rw [show k + 1 + i = k + (i + 1) by omega] at next
        simp only [other, next, List.getElem?_cons_succ]
  have h := found vs 0 i
  rw [Nat.zero_add] at h
  rw [lookup, number, h]
  cases vs[i]? <;> rfl

/-- The parameters from a number on have the values that are bound there. -/
def Binds (ps : List Param) (n : Nat) (vs : List Value) : Prop :=
  ∀ i v, vs[i]? = some v → Param.lookup ps (placeholder (n + i)) = v.bound

namespace Binds

variable {ps : List Param} {n : Nat} {us vs : List Value}

theorem number (before vs later : List Value) :
    Binds (Param.number (before ++ vs ++ later)) before.length vs := by
  intro i v h
  have hi : i < vs.length := (List.getElem?_eq_some_iff.mp h).1
  have at_i : (before ++ vs ++ later)[before.length + i]? = some v := by
    rw [List.append_assoc, List.getElem?_append_right (by omega),
      List.getElem?_append_left (by omega), Nat.add_sub_cancel_left, h]
  rw [Param.lookup_number, at_i]
  rfl

theorem left (h : Binds ps n (us ++ vs)) : Binds ps n us := by
  intro i v hv
  have hi : i < us.length := (List.getElem?_eq_some_iff.mp hv).1
  exact h i v (by rw [List.getElem?_append_left hi, hv])

theorem right (h : Binds ps n (us ++ vs)) : Binds ps (n + us.length) vs := by
  intro i v hv
  rw [Nat.add_assoc]
  refine h (us.length + i) v ?_
  rw [List.getElem?_append_right (by omega), Nat.add_sub_cancel_left, hv]

theorem one {v : Value} (h : Binds ps n [v]) : Param.lookup ps (placeholder n) = v.bound :=
  h 0 v rfl

end Binds

/-! ## Agreement -/

section

variable {s : Scope} {n : Nat} {e : Expr} {vs : List Value} {ps : List Param} (db : Storage)
  (row : RowValues)

theorem ValueImage.value {v : Operand} (h : ValueImage s n e v vs) (hb : Binds ps n vs) :
    v.value db row ps = e.value s row := by
  cases h with
  | field hr => simp [Operand.value, Expr.value, hr]
  | constant v => exact hb.one

theorem truth_of_nullCheck? {op : Comparison} {t : Test} (ht : nullCheck? op = some t)
    (v : Value) : t.truth db row ps v = Expr.nullTruth op v := by
  cases op <;> cases ht <;> rfl

theorem Image.truth {r : Reading} (h : Image s n e r vs) (hb : Binds ps n vs) :
    r.truth db row ps = e.truth db s row := by
  induction h with
  | and _ _ ihl ihr => rw [Reading.truth, Expr.truth, ihl hb.left, ihr hb.right]
  | or _ _ ihl ihr => rw [Reading.truth, Expr.truth, ihl hb.left, ihr hb.right]
  | not _ ih => rw [Reading.truth, Expr.truth, ih hb]
  | compare nl nr hl hr =>
    simp only [Reading.truth, Test.truth, Expr.compare, Expr.truth, nl, nr, Bool.false_eq_true,
      ↓reduceIte, hl.value db row hb.left, hr.value db row hb.right]
  | againstNull nl nr ht hv =>
    simp only [Reading.truth, Expr.compare, Expr.truth, nr, ↓reduceIte,
      truth_of_nullCheck? db row ht, hv.value db row hb]
  | nullAgainst nl nr ht hv =>
    simp only [Reading.truth, Expr.compare, Expr.truth, nl, nr, Bool.false_eq_true, ↓reduceIte,
      truth_of_nullCheck? db row ht, hv.value db row hb]
  | isNull hv => rw [Reading.truth, Test.truth, Expr.truth, hv.value db row hb]
  | isNotNull hv => rw [Reading.truth, Test.truth, Expr.truth, hv.value db row hb]
  | isNullWith hv => rw [Reading.truth, Test.truth, Expr.truth, hv.value db row hb]
  | isNotNullWith hv => rw [Reading.truth, Test.truth, Expr.truth, hv.value db row hb]
  | textMatch hv =>
    rw [Reading.truth, Test.truth, Expr.truth, hv.value db row hb.left, Operand.value,
      hb.right.one]
    rfl
  | isTrue hv =>
    have h := hv.value db row hb
    cases hv with
    | field hr => rw [Reading.truth, Test.truth, h]; rfl
    | constant v => rw [Reading.truth, Test.truth, h]; rfl

end

/-- The text of an expression is read as its image, in no other way, and with whatever is bound
before and after is as true as the expression. -/
theorem toCondition_reads_image {s : Scope} {e : Expr} {before vs : List Value} {c : Condition}
    (h : (e.toCondition s).run before.length = (vs, .ok c)) :
    ∃ r, (∀ r' vs', Image s before.length e r' vs' ↔ r' = r ∧ vs' = vs) ∧
      (∀ r', ReadsAs (sqlOf c.pieces) r' ↔ r' = r) ∧
      ∀ (db : Storage) (row : RowValues) (later : List Value),
        r.truth db row (Param.number (before ++ vs ++ later)) = e.truth db s row := by
  obtain ⟨r, image, reads⟩ := Expr.toCondition_image h
  have text : ReadsAs (sqlOf c.pieces) r := by
    rw [ReadsAs, c.legible.tokens_sqlOf]
    exact .ofAnd (.ofNot reads)
  refine ⟨r, fun r' vs' => ⟨fun h' => h'.unique image, ?_⟩,
    fun r' => ⟨fun h' => h'.unique text, fun h' => h' ▸ text⟩, ?_⟩
  · rintro ⟨rfl, rfl⟩
    exact image
  · intro db row later
    exact image.truth db row (Binds.number before vs later)

/-- A table whose alias is a keyword and whose columns hold brackets and operators. -/
def keywordScope : Scope :=
  ⟨[⟨"Order", "AND", { table := "order", columns := [⟨"a", "x] OR [y"⟩, ⟨"b", "= 1)"⟩] }⟩], 1⟩

/-- `!(a == null || (b && 5 < a)) && b.contains("%")`, in the names of that table. -/
def keywordCondition : Expr :=
  .binary (.logical .and)
    (.negation (.binary (.logical .or) (.compare .equal (.named "a") (.constant .null))
      (.binary (.logical .and) (.named "b") (.compare .less (.constant (.int 5)) (.named "a")))))
    (.callWith (.text .contains) (.named "b") (.constant (.text "%")))

theorem toCondition_reads_image_keywords :
    ∃ vs c, (keywordCondition.toCondition keywordScope).run [Value.null].length = (vs, .ok c) ∧
      ∃ r, (∀ r' vs', Image keywordScope 1 keywordCondition r' vs' ↔ r' = r ∧ vs' = vs) ∧
        (∀ r', ReadsAs (sqlOf c.pieces) r' ↔ r' = r) ∧
        ∀ (db : Storage) (row : RowValues) (later : List Value),
          r.truth db row (Param.number ([.null] ++ vs ++ later))
            = keywordCondition.truth db keywordScope row :=
  ⟨_, _, rfl, @toCondition_reads_image keywordScope keywordCondition [.null] _ _ rfl⟩

end RecordQuery
