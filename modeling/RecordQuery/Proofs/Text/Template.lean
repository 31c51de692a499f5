import RecordQuery.Proofs.Text.Matching

/-!
# Texts with open places

A template is a text whose names are left open. What may be found in it, whatever the names are, is
computed on its symbols, in which an open place stands for any stretch of text of its sort:
`mayStartIn` says where a text may start, and a pattern without a key that may start anywhere
(`lacks`) is found in no text made from the template (`find?_eq_none_of_lacks`).
-/

namespace RecordQuery.Text

open Pattern

/-! ## Symbols -/

/-- What is known of a stretch of text: which characters it has and which stand side by side. -/
structure Stretch where
  mem : Char → Bool
  next : Char → Char → Bool

namespace Stretch

/-- The character may come after the last one, where there is one. -/
def follows (k : Stretch) (last : Option Char) (c : Char) : Bool :=
  k.mem c && last.all (k.next · c)

def Allows (k : Stretch) : Option Char → List Char → Prop
  | _, [] => True
  | last, c :: cs => k.follows last c = true ∧ k.Allows (some c) cs

theorem Allows.first {k : Stretch} {last : Option Char} {cs : List Char} (h : k.Allows last cs) :
    k.Allows none cs := by
  cases cs with
  | nil => trivial
  | cons c cs =>
    have mem := h.1
    rw [follows, Bool.and_eq_true] at mem
    exact ⟨by simp [follows, mem.1], h.2⟩

theorem Allows.drop {k : Stretch} {cs : List Char} (h : k.Allows none cs) (n : Nat) :
    k.Allows none (cs.drop n) := by
  induction n generalizing cs with
  | zero => exact h
  | succ n ih =>
    cases cs with
    | nil => trivial
    | cons c cs => exact ih h.2.first

theorem Allows.append {k : Stretch} {last : Option Char} {xs ys : List Char}
    (h : k.Allows last xs) (h' : k.Allows (xs.getLast?.or last) ys) :
    k.Allows last (xs ++ ys) := by
  induction xs generalizing last with
  | nil => exact h'
  | cons x xs ih =>
    refine ⟨h.1, ih h.2 ?_⟩
    rw [List.getLast?_cons] at h'
    cases hx : xs.getLast? <;> rwa [hx] at h'

end Stretch

inductive Sym where
  | letter (c : Char)
  | part (k : Stretch)

/-- The text has the form that the symbols describe. -/
def Fits : List Sym → List Char → Prop
  | [], cs => cs = []
  | .letter c :: t, cs => ∃ rest, cs = c :: rest ∧ Fits t rest
  | .part k :: t, cs => ∃ xs rest, cs = xs ++ rest ∧ k.Allows none xs ∧ Fits t rest

theorem Fits.append {t u : List Sym} {xs ys : List Char} (h : Fits t xs) (h' : Fits u ys) :
    Fits (t ++ u) (xs ++ ys) := by
  induction t generalizing xs with
  | nil =>
    cases h
    exact h'
  | cons s t ih =>
    cases s with
    | letter c =>
      obtain ⟨rest, rfl, fits⟩ := h
      exact ⟨rest ++ ys, rfl, ih fits⟩
    | part k =>
      obtain ⟨part, rest, rfl, allows, fits⟩ := h
      exact ⟨part, rest ++ ys, List.append_assoc .., allows, ih fits⟩

theorem fits_letters (cs : List Char) : Fits (cs.map Sym.letter) cs := by
  induction cs with
  | nil => rfl
  | cons c cs ih => exact ⟨cs, rfl, ih⟩

theorem fits_part {k : Stretch} {cs : List Char} (h : k.Allows none cs) : Fits [.part k] cs :=
  ⟨cs, [], (List.append_nil cs).symm, h, rfl⟩

/-- Every place in a text is a place in its symbols, or inside one. -/
theorem Fits.drop {t : List Sym} {cs : List Char} (h : Fits t cs) {n : Nat} (hn : n < cs.length) :
    ∃ u, u <:+ t ∧ u ≠ [] ∧ Fits u (cs.drop n) := by
  induction t generalizing cs n with
  | nil =>
    cases h
    exact absurd hn (Nat.not_lt_zero n)
  | cons s t ih =>
    have further {rest : List Char} {m : Nat} (fits : Fits t rest) (hm : m < rest.length)
        (same : cs.drop n = rest.drop m) : ∃ u, u <:+ s :: t ∧ u ≠ [] ∧ Fits u (cs.drop n) := by
      obtain ⟨u, tail, nonempty, here⟩ := ih fits hm
      exact ⟨u, tail.trans (List.suffix_cons s t), nonempty, same ▸ here⟩
    cases s with
    | letter c =>
      obtain ⟨rest, rfl, fits⟩ := h
      cases n with
      | zero => exact ⟨_, List.suffix_rfl, nofun, rest, rfl, fits⟩
      | succ n => exact further fits (Nat.lt_of_succ_lt_succ hn) rfl
    | part k =>
      obtain ⟨xs, rest, rfl, allows, fits⟩ := h
      rw [List.length_append] at hn
      by_cases inside : n < xs.length
      · refine ⟨_, List.suffix_rfl, nofun, xs.drop n, rest, ?_, allows.drop n, fits⟩
        rw [List.drop_append_of_le_length (Nat.le_of_lt inside)]
      · refine further fits (m := n - xs.length) (by omega) ?_
        rw [List.drop_append, List.drop_eq_nil_of_le (Nat.not_lt.mp inside), List.nil_append]

/-! ## Where a text may start -/

/-- The text may come next inside a stretch, after its last character, and go on after it. -/
def mayStartPart (k : Stretch) (after : List Char → Bool) : Option Char → List Char → Bool
  | _, [] => true
  | last, c :: w => after (c :: w) || (k.follows last c && mayStartPart k after (some c) w)

/-- The text may come first in one that has the form of the symbols. -/
def mayStart : List Sym → List Char → Bool
  | [], w => w.isEmpty
  | .letter _ :: _, [] => true
  | .letter c :: t, d :: w => c == d && mayStart t w
  | .part k :: t, w => mayStartPart k (mayStart t) none w

/-- The text may start at one of the first symbols, which others come after. -/
def mayStartIn (t after : List Sym) (w : List Char) : Bool :=
  t.tails.any fun u => !u.isEmpty && mayStart (u ++ after) w

theorem mayStart_of_start {t : List Sym} {cs w : List Char} (h : Fits t cs) (start : w <+: cs) :
    mayStart t w = true := by
  induction t generalizing cs w with
  | nil =>
    cases h
    rw [List.prefix_nil.mp start]
    rfl
  | cons s t ih =>
    cases s with
    | letter c =>
      obtain ⟨rest, rfl, fits⟩ := h
      cases w with
      | nil => rfl
      | cons d w =>
        obtain ⟨rfl, further⟩ := List.cons_prefix_cons.mp start
        rw [mayStart, beq_self_eq_true, Bool.true_and]
        exact ih fits further
    | part k =>
      obtain ⟨xs, rest, rfl, allows, fits⟩ := h
      rw [mayStart]
      generalize (none : Option Char) = last at allows
      induction xs generalizing last w with
      | nil =>
        cases w with
        | nil => rfl
        | cons d w => rw [mayStartPart, ih fits start, Bool.true_or]
      | cons x xs ihx =>
        cases w with
        | nil => rfl
        | cons d w =>
          obtain ⟨rfl, further⟩ := List.cons_prefix_cons.mp start
          rw [mayStartPart, allows.1, Bool.true_and, ihx further _ allows.2, Bool.or_true]

theorem mayStartIn_of_start {t after : List Sym} {xs ys w : List Char} (h : Fits t xs)
    (h' : Fits after ys) {n : Nat} (hn : n < xs.length) (start : w <+: (xs ++ ys).drop n) :
    mayStartIn t after w = true := by
  obtain ⟨u, tail, nonempty, here⟩ := h.drop hn
  rw [List.drop_append_of_le_length (Nat.le_of_lt hn)] at start
  rw [mayStartIn, List.any_eq_true]
  refine ⟨u, (List.mem_tails u t).mpr tail, ?_⟩
  rw [mayStart_of_start (here.append h') start, Bool.and_true]
  simpa using nonempty

/-- No text made from the symbols has a key of the pattern in it. -/
def lacks (t : List Sym) (p : Pattern) : Bool :=
  p.keys.all fun w => !w.isEmpty && !mayStartIn t [] w

theorem find?_eq_none_of_lacks {t : List Sym} {p : Pattern} {text : String}
    (h : Fits t (folded text.toList)) (absent : lacks t p = true) :
    p.find? text = none := by
  refine find?_eq_none fun w mem inside => ?_
  have none := List.all_eq_true.mp absent w mem
  rw [Bool.and_eq_true, Bool.not_eq_true', Bool.not_eq_true'] at none
  obtain ⟨before, rest, split⟩ := inside
  have within : before.length < (folded text.toList).length := by
    have : w ≠ [] := by simpa using none.1
    have := List.length_pos_iff.mpr this
    rw [← split, List.length_append, List.length_append]
    omega
  have start : w <+: (folded text.toList ++ []).drop before.length := by
    rw [← split, List.append_nil, List.append_assoc, List.drop_left]
    exact List.prefix_append ..
  have may := mayStartIn_of_start h (show Fits [] [] from rfl) within start
  rw [none.2] at may
  cases may

theorem occursIn_eq_false_of_lacks {t : List Sym} {p : Pattern} {text : String}
    (h : Fits t (folded text.toList)) (absent : lacks t p = true) : p.occursIn text = false := by
  rw [occursIn, find?_eq_none_of_lacks h absent, Option.isSome_none]

end RecordQuery.Text
