import RecordQuery.Proofs.Sql.Token
import RecordQuery.Sql.Condition

/-!
# The grammar of conditions

`Reads` says which tokens are a condition and how they are read: a test of a value binds tighter
than `NOT`, `NOT` tighter than `AND`, `AND` tighter than `OR`, and parentheses override that. No
tokens have two readings (`Reads.unique`): the last `OR` outside of parentheses is the one that is
applied last, or the last `AND` if there is none.
-/

namespace RecordQuery.Sql

/-- A value in a condition. -/
inductive Operand where
  | column (label name : String)
  | placeholder (name : String)
  | numeral (digits : String)
  deriving DecidableEq, Repr

inductive Operand.Reads : List Token → Operand → Prop
  | column (label name : String) :
    Reads [.ident label, .mark '.', .ident name] (.column label name)
  | placeholder {name : String} (h : name.toList.head? = some '@') :
    Reads [.word name] (.placeholder name)
  | numeral {digits : String} (h : digits.toList.head?.any Char.isDigit = true) :
    Reads [.word digits] (.numeral digits)

/-- What is asked of a value. -/
inductive Test where
  | compare (op : Comparison) (right : Operand)
  | isNull
  | isNotNull
  | like (pattern : Operand)
  deriving DecidableEq, Repr

inductive Test.Reads : List Token → Test → Prop
  | compare {op : Comparison} {sign : String} {rs : List Token} {r : Operand}
    (hs : sign = comparisonText op) (hr : Operand.Reads rs r) :
    Reads (.sign sign :: rs) (.compare op r)
  | isNull : Reads [.word "IS", .word "NULL"] .isNull
  | isNotNull : Reads [.word "IS", .word "NOT", .word "NULL"] .isNotNull
  | like {ps : List Token} {p : Operand} (hp : Operand.Reads ps p) :
    Reads (.word "LIKE" :: ps) (.like p)

/-- A condition as it is read. -/
inductive Reading where
  | test (v : Operand) (t : Test)
  | and (left right : Reading)
  | or (left right : Reading)
  | not (r : Reading)
  deriving DecidableEq, Repr

/-- How tight a condition binds, from the loosest on. -/
inductive Level where
  | or | and | not | test
  deriving DecidableEq, Repr

inductive Reads : Level → List Token → Reading → Prop
  | test {vs ts : List Token} {v : Operand} {t : Test} (hv : Operand.Reads vs v)
    (ht : Test.Reads ts t) : Reads .test (vs ++ ts) (.test v t)
  | paren {ts : List Token} {r : Reading} (h : Reads .or ts r) :
    Reads .test (.mark '(' :: (ts ++ [.mark ')'])) r
  | ofTest {ts : List Token} {r : Reading} (h : Reads .test ts r) : Reads .not ts r
  | not {ts : List Token} {r : Reading} (h : Reads .not ts r) :
    Reads .not (.word "NOT" :: ts) (.not r)
  | ofNot {ts : List Token} {r : Reading} (h : Reads .not ts r) : Reads .and ts r
  | and {ls rs : List Token} {l r : Reading} (hl : Reads .and ls l) (hr : Reads .not rs r) :
    Reads .and (ls ++ .word "AND" :: rs) (.and l r)
  | ofAnd {ts : List Token} {r : Reading} (h : Reads .and ts r) : Reads .or ts r
  | or {ls rs : List Token} {l r : Reading} (hl : Reads .or ls l) (hr : Reads .and rs r) :
    Reads .or (ls ++ .word "OR" :: rs) (.or l r)

/-- A text is read as a condition. -/
def ReadsAs (sql : String) (r : Reading) : Prop := Reads .or (tokens sql) r

/-! ## Parentheses -/

def Token.weight : Token → Int
  | mark '(' => 1
  | mark ')' => -1
  | _ => 0

/-- The number of parentheses that are open at the end. -/
def depth : List Token → Int
  | [] => 0
  | t :: ts => t.weight + depth ts

@[simp] theorem depth_nil : depth [] = 0 := rfl

@[simp] theorem depth_cons (t : Token) (ts : List Token) :
    depth (t :: ts) = t.weight + depth ts := rfl

@[simp] theorem depth_append (ls rs : List Token) : depth (ls ++ rs) = depth ls + depth rs := by
  induction ls with
  | nil => simp
  | cons t ls ih => rw [List.cons_append, depth_cons, depth_cons, ih, Int.add_assoc]

structure Balanced (ts : List Token) : Prop where
  whole : depth ts = 0
  initial : ∀ a b, ts = a ++ b → 0 ≤ depth a

/-- The token occurs within parentheses only. -/
def Sheltered (w : Token) (ts : List Token) : Prop := ∀ a b, ts = a ++ w :: b → 0 < depth a

theorem Balanced.of_weight {ts : List Token} (h : ∀ t ∈ ts, t.weight = 0) : Balanced ts := by
  have flat (ts : List Token) (h : ∀ t ∈ ts, t.weight = 0) : depth ts = 0 := by
    induction ts with
    | nil => rfl
    | cons t ts ih =>
      rw [depth_cons, h t List.mem_cons_self, ih fun u hu => h u (List.mem_cons_of_mem _ hu)]
      rfl
  refine ⟨flat ts h, fun a b he => ?_⟩
  have := flat a fun t ht => h t (he ▸ List.mem_append_left b ht)
  omega

theorem Balanced.append {ls rs : List Token} (hl : Balanced ls) (hr : Balanced rs) :
    Balanced (ls ++ rs) := by
  refine ⟨by rw [depth_append, hl.whole, hr.whole]; rfl, fun a b he => ?_⟩
  obtain ⟨c, rfl, _⟩ | ⟨c, rfl, _⟩ := List.append_eq_append_iff.mp he
  · have h1 := hl.whole
    have h2 := hr.initial c b ‹_›
    rw [depth_append]
    omega
  · exact hl.initial a c rfl

theorem Balanced.cons {t : Token} {ts : List Token} (ht : t.weight = 0) (h : Balanced ts) :
    Balanced (t :: ts) := by
  have one : Balanced [t] := .of_weight fun u hu => by rw [List.mem_singleton.mp hu, ht]
  exact one.append h

theorem Balanced.paren {ts : List Token} (h : Balanced ts) :
    Balanced (.mark '(' :: (ts ++ [.mark ')'])) := by
  have whole := h.whole
  refine ⟨by simp [Token.weight, whole], fun a b he => ?_⟩
  cases a with
  | nil => simp
  | cons t a =>
    obtain ⟨rfl, hts⟩ := List.cons.inj he
    obtain ⟨c, rfl, hc⟩ | ⟨c, rfl, _⟩ := List.append_eq_append_iff.mp hts
    · -- the prefix reaches the closing parenthesis
      rcases List.cons_eq_append_iff.mp hc with ⟨rfl, _⟩ | ⟨c', rfl, hc'⟩
      · simp [Token.weight, whole]
      · obtain ⟨rfl, _⟩ := List.append_eq_nil_iff.mp hc'.symm
        simp [Token.weight, whole]
    · have := h.initial a c rfl
      simp only [depth_cons, Token.weight]
      omega

theorem Sheltered.of_not_mem {w : Token} {ts : List Token} (h : w ∉ ts) : Sheltered w ts := by
  rintro a b rfl
  exact absurd (List.mem_append_right a List.mem_cons_self) h

theorem Sheltered.append {w : Token} {ls rs : List Token} (hl : Sheltered w ls)
    (hr : Sheltered w rs) (hb : Balanced ls) : Sheltered w (ls ++ rs) := by
  intro a b he
  have whole := hb.whole
  obtain ⟨c, rfl, hc⟩ | ⟨c, rfl, hc⟩ := List.append_eq_append_iff.mp he
  · have := hr c b hc
    rw [depth_append]
    omega
  · rcases List.cons_eq_append_iff.mp hc with ⟨rfl, hrs⟩ | ⟨c', rfl, _⟩
    · have := hr [] b hrs
      simp at this
    · exact hl a c' rfl

theorem Sheltered.cons {w t : Token} {ts : List Token} (hne : t ≠ w) (ht : t.weight = 0)
    (h : Sheltered w ts) : Sheltered w (t :: ts) := by
  have one : Sheltered w [t] := of_not_mem fun hm => hne (List.mem_singleton.mp hm).symm
  exact one.append h (.of_weight fun u hu => by rw [List.mem_singleton.mp hu, ht])

theorem Sheltered.paren {w : Token} {ts : List Token} (ho : w ≠ .mark '(') (hc : w ≠ .mark ')')
    (h : Balanced ts) : Sheltered w (.mark '(' :: (ts ++ [.mark ')'])) := by
  intro a b he
  cases a with
  | nil => exact absurd (List.cons.inj he).1.symm ho
  | cons t a =>
    obtain ⟨rfl, hts⟩ := List.cons.inj he
    obtain ⟨c, rfl, hb⟩ | ⟨c, rfl, _⟩ := List.append_eq_append_iff.mp hts
    · rcases List.cons_eq_append_iff.mp hb with ⟨rfl, hw⟩ | ⟨c', rfl, hc'⟩
      · exact absurd (List.cons.inj hw).1 hc
      · cases c' <;> cases hc'
    · have := h.initial a c rfl
      simp only [depth_cons, Token.weight]
      omega

/-- Where the second parts shelter a token, it separates in one way only. -/
theorem split_unique {w : Token} {ls rs ls' rs' : List Token} (hw : w.weight = 0)
    (hl : Balanced ls) (hl' : Balanced ls') (hr : Sheltered w rs) (hr' : Sheltered w rs')
    (he : ls ++ w :: rs = ls' ++ w :: rs') : ls = ls' ∧ rs = rs' := by
  have h := hl.whole
  have h' := hl'.whole
  obtain ⟨c, hc, hrs⟩ | ⟨c, hc, hrs⟩ := List.append_eq_append_iff.mp he
  · rcases List.cons_eq_append_iff.mp hrs with ⟨rfl, hw'⟩ | ⟨c', rfl, hw'⟩
    · exact ⟨by simpa using hc.symm, (List.cons.inj hw').2.symm⟩
    · have := hr c' rs' hw'
      rw [hc, depth_append, depth_cons, hw] at h'
      omega
  · rcases List.cons_eq_append_iff.mp hrs with ⟨rfl, hw'⟩ | ⟨c', rfl, hw'⟩
    · exact ⟨by simpa using hc, (List.cons.inj hw').2⟩
    · have := hr' c' rs hw'
      rw [hc, depth_append, depth_cons, hw] at h
      omega

/-! ## Shape of what is read -/

/-- The token is no parenthesis and no connective. -/
def Token.isInert (t : Token) : Prop := t.weight = 0 ∧ t ≠ .word "AND" ∧ t ≠ .word "OR"

theorem Token.isInert_word {s w : String} {c : Char} (h : s.toList.head? = some c)
    (hw : w.toList.head? ≠ some c) : Token.word s ≠ .word w := by
  rintro ⟨⟩
  exact hw h

theorem Operand.Reads.inert {vs : List Token} {v : Operand} (h : Operand.Reads vs v) :
    ∀ t ∈ vs, t.isInert := by
  cases h with
  | column label name => simp [Token.isInert, Token.weight]
  | placeholder h =>
    rintro t ht
    rw [List.mem_singleton.mp ht]
    exact ⟨rfl, Token.isInert_word h (by decide), Token.isInert_word h (by decide)⟩
  | numeral h =>
    rintro t ht
    obtain ⟨c, hc, hd⟩ := (Option.any_eq_true _ _).mp h
    have other {w : String} (hw : w.toList.head?.any Char.isDigit = false) :
        w.toList.head? ≠ some c := by
      intro e
      rw [e, Option.any_some, hd] at hw
      cases hw
    rw [List.mem_singleton.mp ht]
    exact ⟨rfl, Token.isInert_word hc (other (by decide)),
      Token.isInert_word hc (other (by decide))⟩

theorem Test.Reads.inert {ts : List Token} {t : Test} (h : Test.Reads ts t) :
    ∀ t ∈ ts, t.isInert := by
  have keyword {s : String} (ha : s ≠ "AND") (ho : s ≠ "OR") : (Token.word s).isInert :=
    ⟨rfl, fun h => ha (Token.word.inj h), fun h => ho (Token.word.inj h)⟩
  cases h with
  | compare hs hr =>
    refine List.forall_mem_cons.mpr ⟨?_, hr.inert⟩
    exact ⟨rfl, Token.noConfusion, Token.noConfusion⟩
  | isNull => simp [keyword]
  | isNotNull => simp [keyword]
  | like hp => exact List.forall_mem_cons.mpr ⟨keyword (by decide) (by decide), hp.inert⟩

/-- What binds as tight as a level shelters the connectives that bind looser. -/
structure Closed (l : Level) (ts : List Token) : Prop where
  balanced : Balanced ts
  or : l ≠ .or → Sheltered (.word "OR") ts
  and : l = .not ∨ l = .test → Sheltered (.word "AND") ts

theorem Reads.closed {l : Level} {ts : List Token} {r : Reading} (h : Reads l ts r) :
    Closed l ts := by
  induction h with
  | @test vs ts v t hv ht =>
    have inert : ∀ t ∈ vs ++ ts, t.isInert := List.forall_mem_append.mpr ⟨hv.inert, ht.inert⟩
    refine ⟨.of_weight fun t ht => (inert t ht).1, fun _ => ?_, fun _ => ?_⟩
    · exact .of_not_mem fun hm => (inert _ hm).2.2 rfl
    · exact .of_not_mem fun hm => (inert _ hm).2.1 rfl
  | paren _ ih =>
    have out {w : String} : Sheltered (.word w) _ :=
      .paren Token.noConfusion Token.noConfusion ih.balanced
    exact ⟨ih.balanced.paren, fun _ => out, fun _ => out⟩
  | ofTest _ ih => exact ⟨ih.balanced, fun _ => ih.or (by decide), fun _ => ih.and (.inr rfl)⟩
  | not _ ih =>
    refine ⟨ih.balanced.cons rfl, fun _ => ?_, fun _ => ?_⟩
    · exact (ih.or (by decide)).cons (by decide) rfl
    · exact (ih.and (.inl rfl)).cons (by decide) rfl
  | ofNot _ ih => exact ⟨ih.balanced, fun _ => ih.or (by decide), by rintro (h | h) <;> cases h⟩
  | and _ _ hl hr =>
    refine ⟨hl.balanced.append (hr.balanced.cons rfl), fun _ => ?_, by rintro (h | h) <;> cases h⟩
    exact (hl.or (by decide)).append ((hr.or (by decide)).cons (by decide) rfl) hl.balanced
  | ofAnd _ ih => exact ⟨ih.balanced, fun h => absurd rfl h, by rintro (h | h) <;> cases h⟩
  | or _ _ hl hr =>
    exact ⟨hl.balanced.append (hr.balanced.cons rfl), fun h => absurd rfl h,
      by rintro (h | h) <;> cases h⟩

/-- A token outside of parentheses is not sheltered. -/
theorem Balanced.not_sheltered {w : Token} {ls rs : List Token} (h : Balanced ls) :
    ¬ Sheltered w (ls ++ w :: rs) := by
  intro hs
  have := hs ls rs rfl
  have := h.whole
  omega

/-! ## One reading -/

/-- A value is read to its end, whatever follows it. -/
theorem Operand.Reads.split {vs vs' a b : List Token} {v v' : Operand} (h : Operand.Reads vs v)
    (h' : Operand.Reads vs' v') (he : vs ++ a = vs' ++ b) : v = v' ∧ vs = vs' ∧ a = b := by
  have apart {s : String} (hp : s.toList.head? = some '@')
      (hn : s.toList.head?.any Char.isDigit = true) : False := by
    rw [hp] at hn
    cases hn
  cases h with
  | column label name =>
    cases h' with
    | column label' name' =>
      simp only [List.cons_append, List.nil_append, List.cons.injEq, Token.ident.injEq] at he
      obtain ⟨rfl, _, rfl, rfl⟩ := he
      exact ⟨rfl, rfl, rfl⟩
    | placeholder _ => cases he
    | numeral _ => cases he
  | placeholder hp =>
    cases h' with
    | column _ _ => cases he
    | placeholder _ => cases he; exact ⟨rfl, rfl, rfl⟩
    | numeral hn => cases he; exact (apart hp hn).elim
  | numeral hn =>
    cases h' with
    | column _ _ => cases he
    | placeholder hp => cases he; exact (apart hp hn).elim
    | numeral _ => cases he; exact ⟨rfl, rfl, rfl⟩

theorem Operand.Reads.unique {vs : List Token} {v v' : Operand} (h : Operand.Reads vs v)
    (h' : Operand.Reads vs v') : v = v' :=
  (h.split h' (a := []) (b := []) rfl).1

theorem comparisonText_injective {op op' : Comparison}
    (h : comparisonText op = comparisonText op') : op = op' := by
  cases op <;> cases op' <;> first | rfl | (revert h; decide)

theorem Test.Reads.unique {ts ts' : List Token} {t t' : Test} (h : Test.Reads ts t)
    (h' : Test.Reads ts' t') (he : ts = ts') : t = t' := by
  cases h with
  | compare hs hr =>
    cases h' with
    | compare hs' hr' =>
      obtain ⟨hsign, rfl⟩ := List.cons.inj he
      have hop := hs.symm.trans ((Token.sign.inj hsign).trans hs')
      rw [comparisonText_injective hop, hr.unique hr']
    | _ => cases he
  | isNull => cases h' <;> simp_all
  | isNotNull => cases h' <;> simp_all
  | like hp =>
    cases h' with
    | like hp' =>
      obtain ⟨_, rfl⟩ := List.cons.inj he
      rw [hp.unique hp']
    | _ => simp at he

namespace Reads

variable {ts : List Token} {r : Reading}

theorem or_cases (h : Reads .or ts r) :
    (∃ ls rs l r', ts = ls ++ .word "OR" :: rs ∧ Reads .or ls l ∧ Reads .and rs r' ∧
      r = .or l r') ∨ Reads .and ts r := by
  cases h with
  | ofAnd h => exact .inr h
  | or hl hr => exact .inl ⟨_, _, _, _, rfl, hl, hr, rfl⟩

theorem and_cases (h : Reads .and ts r) :
    (∃ ls rs l r', ts = ls ++ .word "AND" :: rs ∧ Reads .and ls l ∧ Reads .not rs r' ∧
      r = .and l r') ∨ Reads .not ts r := by
  cases h with
  | ofNot h => exact .inr h
  | and hl hr => exact .inl ⟨_, _, _, _, rfl, hl, hr, rfl⟩

theorem not_cases (h : Reads .not ts r) :
    (∃ rs r', ts = .word "NOT" :: rs ∧ Reads .not rs r' ∧ r = .not r') ∨ Reads .test ts r := by
  cases h with
  | ofTest h => exact .inr h
  | not h => exact .inl ⟨_, _, rfl, h, rfl⟩

theorem test_cases (h : Reads .test ts r) :
    (∃ vs us v t, ts = vs ++ us ∧ Operand.Reads vs v ∧ Test.Reads us t ∧ r = .test v t) ∨
      ∃ us, ts = .mark '(' :: (us ++ [.mark ')']) ∧ Reads .or us r := by
  cases h with
  | test hv ht => exact .inl ⟨_, _, _, _, rfl, hv, ht, rfl⟩
  | paren h => exact .inr ⟨_, rfl, h⟩

end Reads

/-- A value starts with neither a parenthesis nor `NOT`. -/
theorem Operand.Reads.head {vs us : List Token} {v : Operand} (h : Operand.Reads vs v) :
    (vs ++ us).head? ≠ some (.mark '(') ∧ (vs ++ us).head? ≠ some (.word "NOT") := by
  cases h with
  | column label name => exact ⟨by simp, by simp⟩
  | placeholder h =>
    refine ⟨by simp, ?_⟩
    rintro ⟨⟩
    revert h
    decide
  | numeral h =>
    refine ⟨by simp, ?_⟩
    rintro ⟨⟩
    revert h
    decide

theorem Reads.head_ne_not {ts : List Token} {r : Reading} (h : Reads .test ts r) :
    ts.head? ≠ some (.word "NOT") := by
  rcases h.test_cases with ⟨vs, us, v, t, rfl, hv, _⟩ | ⟨us, rfl, _⟩
  · exact hv.head.2
  · simp

/-- Tokens are read in one way at most. -/
theorem Reads.unique {l : Level} {ts : List Token} {r r' : Reading} (h : Reads l ts r)
    (h' : Reads l ts r') : r = r' := by
  induction h generalizing r' with
  | test hv ht =>
    -- the value ends where a test of it starts, so both readings split alike
    rcases h'.test_cases with ⟨vs, us, v, t, he, hv', ht', rfl⟩ | ⟨us, he, _⟩
    · obtain ⟨rfl, _, hus⟩ := hv.split hv' he
      rw [ht.unique ht' hus]
    · exact absurd (by rw [he]; rfl) hv.head.1
  | paren _ ih =>
    rcases h'.test_cases with ⟨vs, us, v, t, he, hv', _⟩ | ⟨us, he, hus⟩
    · exact absurd (by rw [← he]; rfl) hv'.head.1
    · have := List.append_cancel_right (List.cons.inj he).2
      subst this
      exact ih hus
  | ofTest h ih =>
    rcases h'.not_cases with ⟨rs, r, rfl, _⟩ | ht
    · exact absurd rfl h.head_ne_not
    · exact ih ht
  | not _ ih =>
    rcases h'.not_cases with ⟨rs, r, he, hr, rfl⟩ | ht
    · cases he
      rw [ih hr]
    · exact absurd rfl ht.head_ne_not
  | ofNot h ih =>
    -- an `AND` between two parts would stand outside of parentheses, where a `NOT` has none
    rcases h'.and_cases with ⟨ls, rs, l, r, rfl, hl, _⟩ | hn
    · exact absurd (h.closed.and (.inl rfl)) hl.closed.balanced.not_sheltered
    · exact ih hn
  | and hl hr ihl ihr =>
    -- the right part shelters `AND`, so both readings split at the last one
    rcases h'.and_cases with ⟨ls, rs, l, r, he, hl', hr', rfl⟩ | hn
    · obtain ⟨rfl, rfl⟩ := split_unique rfl hl.closed.balanced hl'.closed.balanced
        (hr.closed.and (.inl rfl)) (hr'.closed.and (.inl rfl)) he
      rw [ihl hl', ihr hr']
    · exact absurd (hn.closed.and (.inl rfl)) hl.closed.balanced.not_sheltered
  | ofAnd h ih =>
    rcases h'.or_cases with ⟨ls, rs, l, r, rfl, hl, _⟩ | ha
    · exact absurd (h.closed.or (by decide)) hl.closed.balanced.not_sheltered
    · exact ih ha
  | or hl hr ihl ihr =>
    rcases h'.or_cases with ⟨ls, rs, l, r, he, hl', hr', rfl⟩ | ha
    · obtain ⟨rfl, rfl⟩ := split_unique rfl hl.closed.balanced hl'.closed.balanced
        (hr.closed.or (by decide)) (hr'.closed.or (by decide)) he
      rw [ihl hl', ihr hr']
    · exact absurd (ha.closed.or (by decide)) hl.closed.balanced.not_sheltered

end RecordQuery.Sql
