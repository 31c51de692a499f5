import Mathlib.Data.List.DropRight
import RecordQuery.Compile.Select
import RecordQuery.Proofs.Query.Runs

/-!
# Orders of a query

A call that orders adds a key behind those there are, and only clearing the order takes keys away
(`Query.orders_apply`). So the priorities are the positions of the keys (`Query.Numbered`): sorting
by them changes nothing, and the keys are those of the calls since the order was last cleared
(`Query.orders_getElem?`).
-/

namespace RecordQuery.Query

/-- The key that a call orders by, and whether it does so in ascending order. -/
def Step.orderKey? : Step → Option (Expr × Bool)
  | .orderBy key ascending => some (key, ascending)
  | .sort k => some (.named k.field, k.direction = .ascending)
  | _ => none

/-- The order of a call. -/
def ordered (q : Query) (call : Expr × Bool) : Order :=
  ⟨(q.rebaseOrDefer call.1).2, call.2, q.nextPriority⟩

/-- The priorities of the keys are their positions. -/
def Numbered (os : List Order) : Prop := os.map (·.priority) = List.range os.length

theorem Numbered.concat {os : List Order} (h : Numbered os) {o : Order}
    (ho : o.priority = os.length) : Numbered (os ++ [o]) := by
  rw [Numbered, List.map_append, h, List.map_singleton, ho, List.length_append,
    List.length_singleton, List.range_succ]

theorem Numbered.lt {os : List Order} (h : Numbered os) : ∀ o ∈ os, o.priority < os.length := by
  intro o ho
  have mem : o.priority ∈ os.map (·.priority) := List.mem_map_of_mem ho
  rw [h] at mem
  exact List.mem_range.mp mem

/-- The next key comes after those there are. -/
theorem nextPriority_of_numbered {q : Query} (h : Numbered q.orders) :
    q.nextPriority = q.orders.length := by
  have largest (n : Nat) : (List.range n).foldl (fun m p => max m (p + 1)) 0 = n := by
    induction n with
    | zero => rfl
    | succ n ih =>
      rw [List.range_succ, List.foldl_append, ih]
      exact Nat.max_eq_right (Nat.le_succ n)
  have priorities := largest q.orders.length
  rw [← h, List.foldl_map] at priorities
  exact priorities

theorem Numbered.lt_nextPriority {q : Query} (h : Numbered q.orders) :
    ∀ o ∈ q.orders, o.priority < q.nextPriority := by
  rw [nextPriority_of_numbered h]
  exact h.lt

theorem sortedOrders_of_numbered {q : Query} (h : Numbered q.orders) :
    q.sortedOrders = q.orders := by
  refine List.mergeSort_of_pairwise ?_
  have rising : (q.orders.map (·.priority)).Pairwise (· < ·) := by
    rw [h]
    exact List.pairwise_lt_range
  refine (List.pairwise_map.mp rising).imp fun before => ?_
  exact decide_eq_true (Nat.le_of_lt before)

/-! ## One operation -/

theorem orders_orderBy (q : Query) (key : Expr) (ascending : Bool) :
    (q.orderBy key ascending).orders = q.orders ++ [q.ordered (key, ascending)] := by
  have kept := (Leaves.rebases .filters q key).orders nofun
  have added : (q.orderBy key ascending).orders = (q.rebaseOrDefer key).1.orders
      ++ [⟨(q.rebaseOrDefer key).2, ascending, (q.rebaseOrDefer key).1.nextPriority⟩] := rfl
  rw [added, nextPriority, kept]
  rfl

/-- A call that orders adds its key, and only one that clears the order takes keys away. -/
theorem orders_apply (q : Query) (st : Step) :
    (q.apply st).orders = (if st = .clearOrdering then [] else q.orders)
      ++ (st.orderKey?.map q.ordered).toList := by
  have kept := q.apply_leaves st
  cases st with
  | orderBy key ascending => exact q.orders_orderBy key ascending
  | sort k => exact q.orders_orderBy _ _
  | clearOrdering => rfl
  | _ => exact (kept.orders nofun).trans (List.append_nil _).symm

theorem numbered_apply {q : Query} (h : Numbered q.orders) (st : Step) :
    Numbered (q.apply st).orders := by
  rw [orders_apply]
  split
  · next cleared =>
    subst cleared
    rfl
  · cases st.orderKey? with
    | none => rwa [Option.map_none, Option.toList_none, List.append_nil]
    | some call => exact h.concat (nextPriority_of_numbered h)

/-! ## A run of operations -/

def Step.keepsOrder (st : Step) : Bool := st ≠ .clearOrdering

/-- The calls up to the last that clears the order, if one does. -/
def untilCleared (steps : List Step) : List Step := steps.rdropWhile Step.keepsOrder

/-- The calls since the order was last cleared. -/
def sinceCleared (steps : List Step) : List Step := steps.rtakeWhile Step.keepsOrder

theorem numbered_applyAll {q : Query} (h : Numbered q.orders) (steps : List Step) :
    Numbered (q.applyAll steps).orders := by
  induction steps generalizing q with
  | nil => exact h
  | cons st steps ih => exact ih (numbered_apply h st)

variable (s : Shape) (steps : List Step)

theorem length_orders_le : ((ofShape s).applyAll steps).orders.length ≤ steps.length := by
  induction steps using List.reverseRecOn with
  | nil => exact Nat.le_refl _
  | append_singleton steps st ih =>
    rw [applyAll_concat, orders_apply, List.length_append, List.length_append]
    refine Nat.add_le_add ?_ ?_
    · split
      · exact Nat.zero_le _
      · exact ih
    · cases st.orderKey? <;> simp

/-- The number of the next key is at most that of the calls, so it stays within 32 bits for fewer
than 2³² of them. -/
theorem nextPriority_le : ((ofShape s).applyAll steps).nextPriority ≤ steps.length :=
  (nextPriority_of_numbered (numbered_applyAll (q := ofShape s) rfl steps)).trans_le
    (length_orders_le s steps)

theorem untilCleared_append_sinceCleared : untilCleared steps ++ sinceCleared steps = steps :=
  List.rdropWhile_append_rtakeWhile

theorem applyAll_sinceCleared : (ofShape s).applyAll steps
    = ((ofShape s).applyAll (untilCleared steps)).applyAll (sinceCleared steps) := by
  rw [← applyAll_append, untilCleared_append_sinceCleared]

theorem orders_untilCleared : ((ofShape s).applyAll (untilCleared steps)).orders = [] := by
  induction steps using List.reverseRecOn with
  | nil => rfl
  | append_singleton steps st ih =>
    by_cases keeps : st.keepsOrder = true
    · rw [untilCleared, List.rdropWhile_concat_pos _ _ _ keeps]
      exact ih
    · have clears : st = .clearOrdering := by simpa [Step.keepsOrder] using keeps
      rw [untilCleared, List.rdropWhile_concat_neg _ _ _ keeps, applyAll_concat, clears]
      rfl

theorem orders_grow (q : Query) (st : Step) (h : st ∈ sinceCleared steps) :
    (q.apply st).orders = q.orders ++ (st.orderKey?.map q.ordered).toList := by
  have keeps : st.keepsOrder = true := List.mem_rtakeWhile_imp h
  rw [orders_apply, if_neg (of_decide_eq_true keeps)]

/-- There is a key for every call that orders since the order was last cleared. -/
theorem length_orders : ((ofShape s).applyAll steps).orders.length
    = ((sinceCleared steps).filterMap Step.orderKey?).length := by
  rw [applyAll_sinceCleared, length_grown (orders_grow steps), orders_untilCleared]
  exact Nat.zero_add _

/-- The key of a call stands behind those of the calls before it. -/
theorem orders_getElem? {before : List Step} {st : Step} {call : Expr × Bool}
    (split : before ++ [st] <+: sinceCleared steps) (hcall : st.orderKey? = some call) :
    ((ofShape s).applyAll steps).orders[(before.filterMap Step.orderKey?).length]?
      = some ((((ofShape s).applyAll (untilCleared steps)).applyAll before).ordered call) := by
  have at_call := getElem?_grown (orders_grow steps) ((ofShape s).applyAll (untilCleared steps))
    split hcall
  rw [← applyAll_sinceCleared, orders_untilCleared] at at_call
  rw [← at_call]
  exact congrArg (_[·]?) (Nat.zero_add _).symm

end RecordQuery.Query
