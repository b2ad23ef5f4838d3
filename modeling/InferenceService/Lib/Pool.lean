import Mathlib.Data.List.Nodup
import Mathlib.Data.List.Perm.Subperm
import Mathlib.Order.Monotone.Basic

/-!
# A pool of threads

Tasks begin in their order, at most `width` of them run at once, and their
results are gathered as they come. Sorted by task, the results of all tasks do
not depend on how they came.
-/

/-- A task is waiting, at `q` in its work, or finished. -/
inductive PoolTask (Q R : Type) where
  | waiting
  | running (q : Q)
  | finished (r : R)

structure Pool (Q R : Type) where
  tasks : List (PoolTask Q R)
  gathered : List Nat

namespace PoolTask
section
variable {Q R : Type}

def isWaiting : PoolTask Q R → Bool
  | waiting => true
  | _ => false

def isRunning : PoolTask Q R → Bool
  | running _ => true
  | _ => false

def result : PoolTask Q R → Option R
  | finished r => some r
  | _ => none

end
end PoolTask

namespace Pool
section
variable {Q R : Type}

def ofTasks (n : Nat) : Pool Q R := ⟨List.replicate n .waiting, []⟩

def inFlight (p : Pool Q R) : Nat := p.tasks.countP PoolTask.isRunning

def result (p : Pool Q R) (i : Nat) : Option R := p.tasks[i]?.bind PoolTask.result

def complete (p : Pool Q R) : Bool := p.gathered.length = p.tasks.length

def set (p : Pool Q R) (i : Nat) (task : PoolTask Q R) : Pool Q R := { p with tasks := p.tasks.set i task }

/-- The first task that waits begins, if a thread is free. -/
def start (p : Pool Q R) (width : Nat) (begin : Nat → PoolTask Q R) : Option (Pool Q R) :=
  if p.inFlight < width then (p.tasks.findIdx? PoolTask.isWaiting).map fun i => p.set i (begin i) else none

/-- A running task goes on. -/
def work (p : Pool Q R) (i : Nat) (next : Q → Option (PoolTask Q R)) : Option (Pool Q R) :=
  match p.tasks[i]? with
  | some (.running q) => (next q).map (p.set i)
  | _ => none

def gather (p : Pool Q R) (i : Nat) : Option (Pool Q R) :=
  if (p.result i).isSome ∧ i ∉ p.gathered then some { p with gathered := p.gathered ++ [i] } else none

/-! ## What stays true of a pool -/

structure Sound (p : Pool Q R) (width : Nat) : Prop where
  inFlight : p.inFlight ≤ width
  once : p.gathered.Nodup
  finished : ∀ i ∈ p.gathered, (p.result i).isSome = true

variable {p p' : Pool Q R} {width i : Nat} {task task' : PoolTask Q R}

theorem countP_set_le {tasks : List (PoolTask Q R)} (hi : tasks[i]? = some task) (h : PoolTask.isRunning task = true) :
    (tasks.set i task').countP PoolTask.isRunning ≤ tasks.countP PoolTask.isRunning := by
  obtain ⟨hlt, rfl⟩ := List.getElem?_eq_some_iff.mp hi
  have hpos : 0 < tasks.countP PoolTask.isRunning := List.countP_pos_iff.mpr ⟨_, List.getElem_mem hlt, h⟩
  rw [List.countP_set hlt, if_pos h]
  split_ifs <;> omega

theorem countP_set_le_succ {tasks : List (PoolTask Q R)} (hi : tasks[i]? = some task) :
    (tasks.set i task').countP PoolTask.isRunning ≤ tasks.countP PoolTask.isRunning + 1 := by
  obtain ⟨hlt, rfl⟩ := List.getElem?_eq_some_iff.mp hi
  rw [List.countP_set hlt]
  split_ifs <;> omega

theorem result_set {j : Nat} (hi : p.tasks[i]? = some task) :
    (p.set i task').result j = if j = i then task'.result else p.result j := by
  unfold result set
  rw [List.getElem?_set]
  by_cases hij : i = j
  · subst hij
    rw [if_pos rfl, if_pos rfl, if_pos (List.getElem?_eq_some_iff.mp hi).1]
    rfl
  · rw [if_neg hij, if_neg (Ne.symm hij)]

theorem finished_set (hi : p.tasks[i]? = some task) (hno : task.result = none) (h : p.Sound width) :
    ∀ j ∈ p.gathered, ((p.set i task').result j).isSome = true := by
  intro j hj
  rw [result_set hi, if_neg]
  · exact h.finished j hj
  · rintro rfl
    have hsome := h.finished j hj
    unfold result at hsome
    rw [hi, Option.bind_some, hno] at hsome
    cases hsome

theorem sound_ofTasks (n width : Nat) : (ofTasks n : Pool Q R).Sound width where
  inFlight := by
    unfold inFlight ofTasks
    rw [List.countP_replicate]
    simp [PoolTask.isRunning]
  once := List.nodup_nil
  finished := nofun

theorem start_eq {begin : Nat → PoolTask Q R} (h : p.start width begin = some p') :
    ∃ i, p.tasks[i]? = some .waiting ∧ p.inFlight < width ∧ p' = p.set i (begin i) := by
  obtain ⟨hfree, h⟩ := Option.ite_none_right_eq_some.mp h
  obtain ⟨i, hi, rfl⟩ := Option.map_eq_some_iff.mp h
  obtain ⟨hlt, hwait, _⟩ := List.findIdx?_eq_some_iff_getElem.mp hi
  refine ⟨i, ?_, hfree, rfl⟩
  rw [List.getElem?_eq_getElem hlt]
  cases htask : p.tasks[i] with
  | waiting => rfl
  | _ =>
    rw [htask] at hwait
    cases hwait

theorem work_eq {next : Q → Option (PoolTask Q R)} (h : p.work i next = some p') :
    ∃ q task, p.tasks[i]? = some (.running q) ∧ next q = some task ∧ p' = p.set i task := by
  unfold work at h
  split at h
  · rename_i q hi
    obtain ⟨task, hnext, rfl⟩ := Option.map_eq_some_iff.mp h
    exact ⟨q, task, hi, hnext, rfl⟩
  · cases h

theorem Sound.start (hs : p.Sound width) {begin : Nat → PoolTask Q R} (h : p.start width begin = some p') :
    p'.Sound width := by
  obtain ⟨i, hi, hfree, rfl⟩ := start_eq h
  refine ⟨?_, hs.once, finished_set hi rfl hs⟩
  exact Nat.le_trans (countP_set_le_succ hi) hfree

theorem Sound.work (hs : p.Sound width) {next : Q → Option (PoolTask Q R)} (h : p.work i next = some p') :
    p'.Sound width := by
  obtain ⟨q, task, hi, _, rfl⟩ := work_eq h
  exact ⟨Nat.le_trans (countP_set_le hi rfl) hs.inFlight, hs.once, finished_set hi rfl hs⟩

theorem Sound.gather (hs : p.Sound width) (h : p.gather i = some p') : p'.Sound width := by
  obtain ⟨⟨hsome, hnew⟩, h⟩ := Option.ite_none_right_eq_some.mp h
  cases h
  refine ⟨hs.inFlight, List.nodup_append.mpr ⟨hs.once, List.nodup_singleton i, ?_⟩, ?_⟩
  · rintro j hj _ hi rfl
    exact hnew (List.mem_singleton.mp hi ▸ hj)
  · intro j hj
    rcases List.mem_append.mp hj with hj | hj
    · exact hs.finished j hj
    · exact List.mem_singleton.mp hj ▸ hsome

/-! ## The results of all tasks -/

theorem Sound.perm (hs : p.Sound width) (h : p.complete = true) : p.gathered.Perm (List.range p.tasks.length) := by
  have hsubset : p.gathered ⊆ List.range p.tasks.length := by
    intro i hi
    have hsome := hs.finished i hi
    rw [List.mem_range]
    by_contra hge
    unfold result at hsome
    rw [List.getElem?_eq_none (Nat.le_of_not_lt hge)] at hsome
    cases hsome
  apply (List.subperm_of_subset hs.once hsubset).perm_of_length_le
  rw [List.length_range, of_decide_eq_true h]

end

/-- What comes in any order is in the order of the tasks when it is sorted. -/
theorem mergeSort_gathered {S : Type} {l : List Nat} {n : Nat} (h : l.Perm (List.range n)) {f : Nat → Option S}
    {key : S → Nat} {index : Nat → Nat} (hindex : StrictMono index)
    (hkey : ∀ i r, f i = some r → key r = index i) :
    (l.filterMap f).mergeSort (fun a b => key a ≤ key b) = (List.range n).filterMap f := by
  have hlt : (List.range n).Pairwise fun i j => ∀ a, f i = some a → ∀ b, f j = some b → key a < key b := by
    apply List.pairwise_lt_range.imp
    intro i j hij a ha b hb
    rw [hkey i a ha, hkey j b hb]
    exact hindex hij
  have hperm := h.filterMap f
  apply @List.Perm.eq_of_pairwise S (fun a b => key a ≤ key b) _ _ _ _ _ ((List.mergeSort_perm _ _).trans hperm)
  · intro a b ha hb hab hba
    obtain ⟨i, _, hi⟩ := List.mem_filterMap.mp (List.mem_mergeSort.mp ha)
    obtain ⟨j, _, hj⟩ := List.mem_filterMap.mp hb
    have heq := Nat.le_antisymm hab hba
    rw [hkey i a hi, hkey j b hj] at heq
    obtain rfl := hindex.injective heq
    exact Option.some.inj (hi.symm.trans hj)
  · have hsorted := @List.pairwise_mergeSort S (fun a b => decide (key a ≤ key b))
      (fun a b c hab hbc => by simpa using Nat.le_trans (of_decide_eq_true hab) (of_decide_eq_true hbc))
      (fun a b => by simpa using Nat.le_total (key a) (key b)) (l.filterMap f)
    exact hsorted.imp of_decide_eq_true
  · rw [List.pairwise_filterMap]
    exact hlt.imp fun hab a ha b hb => Nat.le_of_lt (hab a ha b hb)

theorem getElem?_filterMap_range {S : Type} {n : Nat} {f : Nat → Option S} (h : ∀ i < n, (f i).isSome = true) :
    ((List.range n).filterMap f).length = n ∧ ∀ i < n, ((List.range n).filterMap f)[i]? = f i := by
  induction n with
  | zero => exact ⟨rfl, nofun⟩
  | succ n ih =>
    obtain ⟨hlength, hget⟩ := ih fun i hi => h i (Nat.lt_succ_of_lt hi)
    obtain ⟨r, hr⟩ := Option.isSome_iff_exists.mp (h n (Nat.lt_succ_self n))
    rw [List.range_succ, List.filterMap_append]
    have hlast : List.filterMap f [n] = [r] := by simp [hr]
    rw [hlast, List.length_append, hlength]
    refine ⟨rfl, fun i hi => ?_⟩
    rcases Nat.lt_succ_iff_lt_or_eq.mp hi with hlt | rfl
    · rw [List.getElem?_append_left (hlength.symm ▸ hlt), hget i hlt]
    · rw [List.getElem?_append_right (Nat.le_of_eq hlength), hlength, Nat.sub_self, hr]
      rfl

end Pool
