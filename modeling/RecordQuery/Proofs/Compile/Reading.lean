import RecordQuery.Proofs.Compile.Scope
import RecordQuery.Proofs.Sql.Grammar
import RecordQuery.Proofs.Sql.Legible
import RecordQuery.Compile.Lowering

/-!
# Conditions are read as the expressions they come from

`Image` says what reading of a condition an expression has: connectives over the readings of its
parts, fields as the columns they resolve to, constants as the placeholders they are bound to. The
text of a lowered expression is read as its image and in no other way, and the reading is as true
on every row as the expression is (`toCondition_reads_image`).
-/

namespace RecordQuery

open Sql

/-- The value of a field or constant, where so many values are bound before it, and the values it
binds. -/
inductive ValueImage (s : Scope) (n : Nat) : Expr → Operand → List Value → Prop
  | field {r : FieldRef} {label name : String} (h : s.resolve r = .ok (.column label name)) :
    ValueImage s n (.field r) (.column label name) []
  | constant (v : Value) : ValueImage s n (.constant v) (.placeholder (placeholder n)) [v]

/-- The test a comparison with null is. -/
def nullCheck? : Comparison → Option Test
  | .equal => some .isNull
  | .notEqual => some .isNotNull
  | _ => none

/-- The reading of a condition, where so many values are bound before it, and the values it
binds. -/
inductive Image (s : Scope) : Nat → Expr → Reading → List Value → Prop
  | and {n : Nat} {l r : Expr} {lr rr : Reading} {us vs : List Value} (hl : Image s n l lr us)
    (hr : Image s (n + us.length) r rr vs) :
    Image s n (.binary (.logical .and) l r) (.and lr rr) (us ++ vs)
  | or {n : Nat} {l r : Expr} {lr rr : Reading} {us vs : List Value} (hl : Image s n l lr us)
    (hr : Image s (n + us.length) r rr vs) :
    Image s n (.binary (.logical .or) l r) (.or lr rr) (us ++ vs)
  | not {n : Nat} {e : Expr} {r : Reading} {vs : List Value} (h : Image s n e r vs) :
    Image s n (.negation e) (.not r) vs
  | compare {n : Nat} {op : Comparison} {l r : Expr} {lv rv : Operand} {us vs : List Value}
    (nl : l.isNullConstant = false) (nr : r.isNullConstant = false) (hl : ValueImage s n l lv us)
    (hr : ValueImage s (n + us.length) r rv vs) :
    Image s n (.compare op l r) (.test lv (.compare op rv)) (us ++ vs)
  | againstNull {n : Nat} {op : Comparison} {l r : Expr} {v : Operand} {t : Test}
    {vs : List Value} (nl : l.isNullConstant = false) (nr : r.isNullConstant = true)
    (ht : nullCheck? op = some t) (h : ValueImage s n l v vs) :
    Image s n (.compare op l r) (.test v t) vs
  | nullAgainst {n : Nat} {op : Comparison} {l r : Expr} {v : Operand} {t : Test}
    {vs : List Value} (nl : l.isNullConstant = true) (nr : r.isNullConstant = false)
    (ht : nullCheck? op = some t) (h : ValueImage s n r v vs) :
    Image s n (.compare op l r) (.test v t) vs
  | isNull {n : Nat} {e : Expr} {v : Operand} {vs : List Value} (h : ValueImage s n e v vs) :
    Image s n (.call .isNull e) (.test v .isNull) vs
  | isNotNull {n : Nat} {e : Expr} {v : Operand} {vs : List Value} (h : ValueImage s n e v vs) :
    Image s n (.call .isNotNull e) (.test v .isNotNull) vs
  /-- An argument of a null test is ignored. -/
  | isNullWith {n : Nat} {e a : Expr} {v : Operand} {vs : List Value}
    (h : ValueImage s n e v vs) : Image s n (.callWith .isNull e a) (.test v .isNull) vs
  | isNotNullWith {n : Nat} {e a : Expr} {v : Operand} {vs : List Value}
    (h : ValueImage s n e v vs) : Image s n (.callWith .isNotNull e a) (.test v .isNotNull) vs
  | textMatch {n : Nat} {m : TextMatch} {e : Expr} {x : String} {v : Operand} {vs : List Value}
    (h : ValueImage s n e v vs) :
    Image s n (.callWith (.text m) e (.constant (.text x)))
      (.test v (.like (.placeholder (placeholder (n + vs.length)))))
      (vs ++ [.text (likePattern m x)])
  | isTrue {n : Nat} {e : Expr} {v : Operand} {vs : List Value} (h : ValueImage s n e v vs) :
    Image s n e (.test v (.compare .equal (.numeral "1"))) vs

theorem ValueImage.unique {s : Scope} {n : Nat} {e : Expr} {v v' : Operand} {vs vs' : List Value}
    (h : ValueImage s n e v vs) (h' : ValueImage s n e v' vs') : v = v' ∧ vs = vs' := by
  cases h with
  | field hr =>
    cases h' with
    | field hr' =>
      cases hr.symm.trans hr'
      exact ⟨rfl, rfl⟩
  | constant v =>
    cases h'
    exact ⟨rfl, rfl⟩

/-- An expression has one image. -/
theorem Image.unique {s : Scope} {n : Nat} {e : Expr} {r r' : Reading} {vs vs' : List Value}
    (h : Image s n e r vs) (h' : Image s n e r' vs') : r = r' ∧ vs = vs' := by
  induction h generalizing r' vs' with
  | and _ _ ihl ihr =>
    cases h' with
    | and hl hr =>
      obtain ⟨rfl, rfl⟩ := ihl hl
      obtain ⟨rfl, rfl⟩ := ihr hr
      exact ⟨rfl, rfl⟩
    | isTrue hv => cases hv
  | or _ _ ihl ihr =>
    cases h' with
    | or hl hr =>
      obtain ⟨rfl, rfl⟩ := ihl hl
      obtain ⟨rfl, rfl⟩ := ihr hr
      exact ⟨rfl, rfl⟩
    | isTrue hv => cases hv
  | not _ ih =>
    cases h' with
    | not hr =>
      obtain ⟨rfl, rfl⟩ := ih hr
      exact ⟨rfl, rfl⟩
    | isTrue hv => cases hv
  | compare nl nr hl hr =>
    cases h' with
    | compare _ _ hl' hr' =>
      obtain ⟨rfl, rfl⟩ := hl.unique hl'
      obtain ⟨rfl, rfl⟩ := hr.unique hr'
      exact ⟨rfl, rfl⟩
    | againstNull _ nr' => simp [nr] at nr'
    | nullAgainst nl' => simp [nl] at nl'
    | isTrue hv => cases hv
  | againstNull nl nr ht hv =>
    cases h' with
    | compare _ nr' => simp [nr] at nr'
    | againstNull _ _ ht' hv' =>
      obtain ⟨rfl, rfl⟩ := hv.unique hv'
      cases ht.symm.trans ht'
      exact ⟨rfl, rfl⟩
    | nullAgainst nl' => simp [nl] at nl'
    | isTrue hv => cases hv
  | nullAgainst nl nr ht hv =>
    cases h' with
    | compare nl' => simp [nl] at nl'
    | againstNull nl' => simp [nl] at nl'
    | nullAgainst _ _ ht' hv' =>
      obtain ⟨rfl, rfl⟩ := hv.unique hv'
      cases ht.symm.trans ht'
      exact ⟨rfl, rfl⟩
    | isTrue hv => cases hv
  | isNull hv =>
    cases h' with
    | isNull hv' => exact ⟨by rw [(hv.unique hv').1], (hv.unique hv').2⟩
    | isTrue hv => cases hv
  | isNotNull hv =>
    cases h' with
    | isNotNull hv' => exact ⟨by rw [(hv.unique hv').1], (hv.unique hv').2⟩
    | isTrue hv => cases hv
  | isNullWith hv =>
    cases h' with
    | isNullWith hv' => exact ⟨by rw [(hv.unique hv').1], (hv.unique hv').2⟩
    | isTrue hv => cases hv
  | isNotNullWith hv =>
    cases h' with
    | isNotNullWith hv' => exact ⟨by rw [(hv.unique hv').1], (hv.unique hv').2⟩
    | isTrue hv => cases hv
  | textMatch hv =>
    cases h' with
    | textMatch hv' =>
      obtain ⟨rfl, rfl⟩ := hv.unique hv'
      exact ⟨rfl, rfl⟩
    | isTrue hv => cases hv
  | isTrue hv =>
    cases h' with
    | isTrue hv' =>
      obtain ⟨rfl, rfl⟩ := hv.unique hv'
      exact ⟨rfl, rfl⟩
    | _ => cases hv

/-! ## The text of an expression -/

namespace Sql

def Term.tokens (t : Term) : List Token := t.pieces.flatMap Piece.tokens

def Condition.tokens (c : Condition) : List Token := c.pieces.flatMap Piece.tokens

theorem reads_column (label name : String) :
    Operand.Reads (Term.column label name).tokens (.column label name) := by
  have dot : tokens "." = [.mark '.'] := rfl
  have ht : (Term.column label name).tokens = [.ident label, .mark '.', .ident name] := by
    simp [Term.tokens, Term.pieces, qualified, Piece.tokens, Piece.sql, dot]
  rw [ht]
  exact .column label name

theorem tokens_parameter (n : Nat) :
    [Piece.parameter n].flatMap Piece.tokens = [.word (placeholder n)] := by
  simp [Piece.tokens, Piece.sql]

theorem reads_parameter (n : Nat) :
    Operand.Reads [.word (placeholder n)] (.placeholder (placeholder n)) :=
  .placeholder (by rw [toList_placeholder]; rfl)

namespace Condition

variable {t : Term} {v : Operand}

theorem reads_compare (op : Comparison) {u : Term} {w : Operand} (ht : Operand.Reads t.tokens v)
    (hu : Operand.Reads u.tokens w) :
    Reads .not (compare op t u).tokens (.test v (.compare op w)) := by
  have sign : Sql.tokens (" " ++ comparisonText op ++ " ") = [.sign (comparisonText op)] := by
    cases op <;> rfl
  have h : (compare op t u).tokens = t.tokens ++ Token.sign (comparisonText op) :: u.tokens := by
    simp [tokens, pieces, Term.tokens, Piece.tokens, Piece.sql, sign]
  rw [h]
  exact .ofTest (.test ht (.compare rfl hu))

theorem reads_isNull (ht : Operand.Reads t.tokens v) :
    Reads .not (isNull t).tokens (.test v .isNull) := by
  have words : Sql.tokens " IS NULL" = [.word "IS", .word "NULL"] := rfl
  have h : (isNull t).tokens = t.tokens ++ [Token.word "IS", .word "NULL"] := by
    simp [tokens, pieces, Term.tokens, Piece.tokens, Piece.sql, words]
  rw [h]
  exact .ofTest (.test ht .isNull)

theorem reads_isNotNull (ht : Operand.Reads t.tokens v) :
    Reads .not (isNotNull t).tokens (.test v .isNotNull) := by
  have words : Sql.tokens " IS NOT NULL" = [.word "IS", .word "NOT", .word "NULL"] := rfl
  have h : (isNotNull t).tokens = t.tokens ++ [Token.word "IS", .word "NOT", .word "NULL"] := by
    simp [tokens, pieces, Term.tokens, Piece.tokens, Piece.sql, words]
  rw [h]
  exact .ofTest (.test ht .isNotNull)

theorem reads_like (n : Nat) (ht : Operand.Reads t.tokens v) :
    Reads .not (like t n).tokens (.test v (.like (.placeholder (placeholder n)))) := by
  have word : Sql.tokens " LIKE " = [.word "LIKE"] := rfl
  have h : (like t n).tokens = t.tokens ++ Token.word "LIKE" :: [Token.word (placeholder n)] := by
    simp [tokens, pieces, Term.tokens, Piece.tokens, Piece.sql, word]
  rw [h]
  exact .ofTest (.test ht (.like (reads_parameter n)))

theorem reads_isTrue (ht : Operand.Reads t.tokens v) :
    Reads .not (isTrue t).tokens (.test v (.compare .equal (.numeral "1"))) := by
  have words : Sql.tokens " = 1" = [.sign "=", .word "1"] := rfl
  have h : (isTrue t).tokens = t.tokens ++ [Token.sign "=", Token.word "1"] := by
    simp [tokens, pieces, Term.tokens, Piece.tokens, Piece.sql, words]
  rw [h]
  exact .ofTest (.test ht (.compare rfl (.numeral (by decide))))

theorem tokens_logical (op : Connective) (l r : Condition) :
    (logical op l r).tokens
      = .mark '(' ::
        ((l.tokens ++ Token.word (connectiveText op) :: r.tokens) ++ [Token.mark ')']) := by
  have word : Sql.tokens (" " ++ connectiveText op ++ " ") = [.word (connectiveText op)] := by
    cases op <;> rfl
  have opening : Sql.tokens "(" = [.mark '('] := rfl
  have closing : Sql.tokens ")" = [.mark ')'] := rfl
  simp [tokens, pieces, Piece.tokens, Piece.sql, word, opening, closing]

theorem reads_and {l r : Condition} {lr rr : Reading} (hl : Reads .not l.tokens lr)
    (hr : Reads .not r.tokens rr) : Reads .not (logical .and l r).tokens (.and lr rr) := by
  rw [tokens_logical]
  exact .ofTest (.paren (.ofAnd (.and (.ofNot hl) hr)))

theorem reads_or {l r : Condition} {lr rr : Reading} (hl : Reads .not l.tokens lr)
    (hr : Reads .not r.tokens rr) : Reads .not (logical .or l r).tokens (.or lr rr) := by
  rw [tokens_logical]
  exact .ofTest (.paren (.or (.ofAnd (.ofNot hl)) (.ofNot hr)))

theorem reads_negation {c : Condition} {r : Reading} (h : Reads .not c.tokens r) :
    Reads .not (negation c).tokens (.not r) := by
  have opening : Sql.tokens "NOT (" = [.word "NOT", .mark '('] := rfl
  have closing : Sql.tokens ")" = [.mark ')'] := rfl
  have ht : (negation c).tokens
      = .word "NOT" :: .mark '(' :: (c.tokens ++ [Token.mark ')']) := by
    simp [tokens, pieces, Piece.tokens, Piece.sql, opening, closing]
  rw [ht]
  exact .not (.ofTest (.paren (.ofAnd (.ofNot h))))

end Condition

end Sql

namespace Expr

open Lowering

variable {s : Scope} {n : Nat} {vs : List Value}

/-- A value is read as its image. -/
theorem toOperand_image {e : Expr} {t : Term} (h : (e.toOperand s).run n = (vs, .ok t)) :
    ∃ v, ValueImage s n e v vs ∧ Operand.Reads t.tokens v := by
  cases e with
  | field r =>
    obtain ⟨rfl, hr⟩ := Prod.mk.inj h
    obtain ⟨table, _, c, _, rfl⟩ := Scope.resolve_ok hr
    exact ⟨_, .field hr, reads_column _ _⟩
  | constant v =>
    cases h
    refine ⟨_, .constant v, ?_⟩
    rw [Term.tokens, Term.pieces, tokens_parameter]
    exact reads_parameter n
  | _ => cases h

theorem toOperand_pure_image {e : Expr} {k : Term → Condition} {c : Condition}
    (h : (e.toOperand s >>= fun t => pure (k t)).run n = (vs, .ok c)) :
    ∃ t v, c = k t ∧ ValueImage s n e v vs ∧ Operand.Reads t.tokens v := by
  obtain ⟨us, t, ws, ht, hc, rfl⟩ := run_bind_ok_iff.mp h
  cases hc
  obtain ⟨v, hv, hr⟩ := toOperand_image ht
  rw [List.append_nil]
  exact ⟨t, v, rfl, hv, hr⟩

theorem nullTest_image {op : Comparison} {t : Term} {v : Operand} {c : Condition}
    (ht : Operand.Reads t.tokens v) (h : (nullTest op t).run n = (vs, .ok c)) :
    vs = [] ∧ ∃ u, nullCheck? op = some u ∧ Reads .not c.tokens (.test v u) := by
  cases op with
  | equal =>
    cases h
    exact ⟨rfl, _, rfl, Condition.reads_isNull ht⟩
  | notEqual =>
    cases h
    exact ⟨rfl, _, rfl, Condition.reads_isNotNull ht⟩
  | _ => cases h

theorem toComparison_image {op : Comparison} {l r : Expr} {c : Condition}
    (h : (toComparison s op l r).run n = (vs, .ok c)) :
    ∃ rd, Image s n (.compare op l r) rd vs ∧ Reads .not c.tokens rd := by
  unfold toComparison at h
  split at h
  · cases h
  · next nl nr =>
    obtain ⟨us, t, ws, hl, hc, rfl⟩ := run_bind_ok_iff.mp h
    obtain ⟨v, hv, ht⟩ := toOperand_image hl
    obtain ⟨rfl, u, hu, hr⟩ := nullTest_image ht hc
    rw [List.append_nil]
    exact ⟨_, .againstNull nl nr hu hv, hr⟩
  · next nl nr =>
    obtain ⟨us, t, ws, hl, hc, rfl⟩ := run_bind_ok_iff.mp h
    obtain ⟨v, hv, ht⟩ := toOperand_image hl
    obtain ⟨rfl, u, hu, hr⟩ := nullTest_image ht hc
    rw [List.append_nil]
    exact ⟨_, .nullAgainst nl nr hu hv, hr⟩
  · next nl nr =>
    obtain ⟨us, lt, ws, hl, hc, rfl⟩ := run_bind_ok_iff.mp h
    obtain ⟨ws, rt, _, hr, hp, rfl⟩ := run_bind_ok_iff.mp hc
    cases hp
    obtain ⟨lv, hlv, hlt⟩ := toOperand_image hl
    obtain ⟨rv, hrv, hrt⟩ := toOperand_image hr
    rw [List.append_nil]
    exact ⟨_, .compare nl nr hlv hrv, Condition.reads_compare op hlt hrt⟩

theorem toTextMatch_image {m : TextMatch} {target a : Expr} {c : Condition}
    (h : (toTextMatch s m target (some a)).run n = (vs, .ok c)) :
    ∃ rd, Image s n (.callWith (.text m) target a) rd vs ∧ Reads .not c.tokens rd := by
  obtain ⟨us, t, ws, ht, hc, rfl⟩ := run_bind_ok_iff.mp h
  obtain ⟨v, hv, hr⟩ := toOperand_image ht
  split at hc
  · next x ha =>
    cases ha
    cases hc
    exact ⟨_, .textMatch hv, Condition.reads_like _ hr⟩
  · cases hc

/-- A condition is read as the image of its expression, as tight as `NOT` binds. -/
theorem toCondition_image {e : Expr} {c : Condition}
    (h : (e.toCondition s).run n = (vs, .ok c)) :
    ∃ rd, Image s n e rd vs ∧ Reads .not c.tokens rd := by
  induction e generalizing n vs c with
  | field r =>
    obtain ⟨t, v, rfl, hv, hr⟩ := toOperand_pure_image h
    exact ⟨_, .isTrue hv, Condition.reads_isTrue hr⟩
  | constant k =>
    obtain ⟨t, v, rfl, hv, hr⟩ := toOperand_pure_image h
    exact ⟨_, .isTrue hv, Condition.reads_isTrue hr⟩
  | binary op l r ihl ihr =>
    cases op with
    | logical op =>
      obtain ⟨us, lc, ws, hl, hc, rfl⟩ := run_bind_ok_iff.mp h
      obtain ⟨ws, rc, _, hr, hp, rfl⟩ := run_bind_ok_iff.mp hc
      cases hp
      obtain ⟨lr, hli, hlr⟩ := ihl hl
      obtain ⟨rr, hri, hrr⟩ := ihr hr
      rw [List.append_nil]
      cases op with
      | and => exact ⟨_, .and hli hri, Condition.reads_and hlr hrr⟩
      | or => exact ⟨_, .or hli hri, Condition.reads_or hlr hrr⟩
    | comparison op => exact toComparison_image h
    | arithmetic op => cases h
  | call m target =>
    cases m with
    | text m =>
      obtain ⟨us, t, ws, ht, hc, rfl⟩ := run_bind_ok_iff.mp h
      cases hc
    | isNull =>
      obtain ⟨t, v, rfl, hv, hr⟩ := toOperand_pure_image h
      exact ⟨_, .isNull hv, Condition.reads_isNull hr⟩
    | isNotNull =>
      obtain ⟨t, v, rfl, hv, hr⟩ := toOperand_pure_image h
      exact ⟨_, .isNotNull hv, Condition.reads_isNotNull hr⟩
    | other name => cases h
  | callWith m target a =>
    cases m with
    | text m => exact toTextMatch_image h
    | isNull =>
      obtain ⟨t, v, rfl, hv, hr⟩ := toOperand_pure_image h
      exact ⟨_, .isNullWith hv, Condition.reads_isNull hr⟩
    | isNotNull =>
      obtain ⟨t, v, rfl, hv, hr⟩ := toOperand_pure_image h
      exact ⟨_, .isNotNullWith hv, Condition.reads_isNotNull hr⟩
    | other name => cases h
  | negation e ih =>
    obtain ⟨us, ec, ws, he, hc, rfl⟩ := run_bind_ok_iff.mp h
    cases hc
    obtain ⟨r, hi, hr⟩ := ih he
    rw [List.append_nil]
    exact ⟨_, .not hi, Condition.reads_negation hr⟩
  | aggregateAll f => cases h
  | aggregate f a => cases h

end Expr

end RecordQuery
