import Mathlib.Order.BoundedOrder.Basic
import Mathlib.Order.Lattice
import Mathlib.Data.List.Basic

/-!
# Streams with a consumer group

A stream is a list of entries under increasing ids. A consumer group remembers
the last id it delivered and, for each delivered and unacknowledged entry, one
consumer. Ids come from any linear order with a least element, which stands for
`0-0` and is no entry's id.
-/

namespace Redis

/-- A pending entry: who has it, since when, and how often it was delivered. -/
structure Nack (ι κ : Type) where
  id : ι
  consumer : κ
  deliveredAt : Nat
  deliveries : Nat
deriving DecidableEq, Repr

namespace Nack
variable {ι κ : Type}

def fresh (consumer : κ) (now : Nat) (id : ι) : Nack ι κ := ⟨id, consumer, now, 1⟩

def claimed (consumer : κ) (now : Nat) (n : Nack ι κ) : Nack ι κ := ⟨n.id, consumer, now, n.deliveries + 1⟩

theorem map_fresh_id (consumer : κ) (now : Nat) (ids : List ι) : (ids.map (fresh consumer now)).map id = ids := by
  rw [List.map_map]
  exact List.map_id ids

theorem map_claimed_id (p : ι → Bool) (consumer : κ) (now : Nat) (l : List (Nack ι κ)) :
    (l.map fun n => if p n.id then n.claimed consumer now else n).map Nack.id = l.map Nack.id := by
  rw [List.map_map]
  apply List.map_congr_left
  intro n _
  by_cases h : p n.id <;> simp [h, Nack.claimed]

end Nack

structure Group (ι κ : Type) [LinearOrder ι] where
  lastDelivered : ι
  pending : List (Nack ι κ)
  sorted : (pending.map Nack.id).Pairwise (· < ·)
  delivered : ∀ n ∈ pending, n.id ≤ lastDelivered

structure Stream (ι φ κ : Type) [LinearOrder ι] [OrderBot ι] where
  entries : List (ι × φ)
  lastId : ι
  group : Option (Group ι κ)
  sorted : (entries.map Prod.fst).Pairwise (· < ·)
  bounded : ∀ e ∈ entries, ⊥ < e.1 ∧ e.1 ≤ lastId
  reached : ∀ g ∈ group, g.lastDelivered ≤ lastId

section
variable {ι : Type} [LinearOrder ι]

theorem le_getLast {l : List ι} (h : l.Pairwise (· < ·)) (hne : l ≠ []) {x : ι} (hx : x ∈ l) :
    x ≤ l.getLast hne := by
  rw [← List.dropLast_concat_getLast hne] at h hx
  rcases List.mem_append.mp hx with hx | hx
  · exact le_of_lt ((List.pairwise_append.mp h).2.2 x hx _ (List.mem_singleton.mpr rfl))
  · exact le_of_eq (List.mem_singleton.mp hx)

/-- What a prefix of an increasing list holds lies below its last element. -/
theorem mem_take_iff {a : ι} {l : List ι} (h : (a :: l).Pairwise (· < ·)) (n : Nat) {x : ι} (hx : x ∈ l) :
    x ∈ l.take n ↔ x ≤ (a :: l.take n).getLast (List.cons_ne_nil _ _) := by
  have happ : (a :: l.take n ++ l.drop n).Pairwise (· < ·) := by
    rw [List.cons_append, List.take_append_drop]; exact h
  obtain ⟨htake, _, hlt⟩ := List.pairwise_append.mp happ
  constructor
  · intro hmem
    exact le_getLast htake _ (List.mem_cons_of_mem _ hmem)
  · intro hle
    rw [← List.take_append_drop n l] at hx
    rcases List.mem_append.mp hx with hx | hx
    · exact hx
    · exact absurd (hlt _ (List.getLast_mem _) x hx) (not_lt.mpr hle)

end

/-! ## The group -/

namespace Group
variable {ι κ : Type} [LinearOrder ι]

def ids (g : Group ι κ) : List ι := g.pending.map Nack.id

def find (g : Group ι κ) (id : ι) : Option (Nack ι κ) := g.pending.find? fun n => n.id = id

def startAt (start : ι) : Group ι κ := ⟨start, [], List.Pairwise.nil, nofun⟩

/-- Hands `ids`, all of them new, to a consumer. -/
def deliver (g : Group ι κ) (consumer : κ) (now : Nat) (ids : List ι)
    (h : (g.lastDelivered :: ids).Pairwise (· < ·)) : Group ι κ where
  lastDelivered := (g.lastDelivered :: ids).getLast (List.cons_ne_nil _ _)
  pending := g.pending ++ ids.map (Nack.fresh consumer now)
  sorted := by
    rw [List.map_append, Nack.map_fresh_id]
    refine List.pairwise_append.mpr ⟨g.sorted, (List.pairwise_cons.mp h).2, ?_⟩
    intro x hx y hy
    obtain ⟨n, hn, rfl⟩ := List.mem_map.mp hx
    exact lt_of_le_of_lt (g.delivered n hn) ((List.pairwise_cons.mp h).1 y hy)
  delivered := by
    intro n hn
    rcases List.mem_append.mp hn with hn | hn
    · exact le_trans (g.delivered n hn) (le_getLast h _ List.mem_cons_self)
    · obtain ⟨x, hx, rfl⟩ := List.mem_map.mp hn
      exact le_getLast h _ (List.mem_cons_of_mem _ hx)

def claim (g : Group ι κ) (p : ι → Bool) (consumer : κ) (now : Nat) : Group ι κ where
  lastDelivered := g.lastDelivered
  pending := g.pending.map fun n => if p n.id then n.claimed consumer now else n
  sorted := by rw [Nack.map_claimed_id]; exact g.sorted
  delivered := by
    intro n hn
    obtain ⟨m, hm, rfl⟩ := List.mem_map.mp hn
    by_cases h : p m.id
    · rw [if_pos h]; exact g.delivered m hm
    · rw [if_neg h]; exact g.delivered m hm

def drop (g : Group ι κ) (p : ι → Bool) : Group ι κ where
  lastDelivered := g.lastDelivered
  pending := g.pending.filter fun n => !p n.id
  sorted := g.sorted.sublist (List.filter_sublist.map _)
  delivered n hn := g.delivered n (List.mem_filter.mp hn).1

@[simp] theorem claim_lastDelivered (g : Group ι κ) (p : ι → Bool) (c : κ) (now : Nat) :
    (g.claim p c now).lastDelivered = g.lastDelivered := rfl

@[simp] theorem drop_lastDelivered (g : Group ι κ) (p : ι → Bool) :
    (g.drop p).lastDelivered = g.lastDelivered := rfl

theorem deliver_ids (g : Group ι κ) (c : κ) (now : Nat) (ids : List ι)
    (h : (g.lastDelivered :: ids).Pairwise (· < ·)) : (g.deliver c now ids h).ids = g.ids ++ ids := by
  unfold deliver Group.ids
  rw [List.map_append, Nack.map_fresh_id]

theorem claim_ids (g : Group ι κ) (p : ι → Bool) (c : κ) (now : Nat) : (g.claim p c now).ids = g.ids :=
  Nack.map_claimed_id p c now g.pending

theorem mem_drop_ids (g : Group ι κ) (p : ι → Bool) {id : ι} : id ∈ (g.drop p).ids ↔ id ∈ g.ids ∧ p id = false := by
  unfold drop Group.ids
  simp only [List.mem_map, List.mem_filter, Bool.not_eq_eq_eq_not, Bool.not_true]
  constructor
  · rintro ⟨n, ⟨hn, hp⟩, rfl⟩; exact ⟨⟨n, hn, rfl⟩, hp⟩
  · rintro ⟨⟨n, hn, rfl⟩, hp⟩; exact ⟨n, ⟨hn, hp⟩, rfl⟩

theorem mem_ids_iff_find (g : Group ι κ) {id : ι} : id ∈ g.ids ↔ ∃ n, g.find id = some n := by
  unfold Group.ids find
  rw [← Option.isSome_iff_exists, List.find?_isSome, List.mem_map]
  simp

theorem ids_nodup (g : Group ι κ) : g.ids.Nodup := g.sorted.imp ne_of_lt

end Group

/-! ## The commands -/

namespace Stream
variable {ι φ κ : Type} [LinearOrder ι] [OrderBot ι]

def empty : Stream ι φ κ := ⟨[], ⊥, none, List.Pairwise.nil, nofun, nofun⟩

def ids (s : Stream ι φ κ) : List ι := s.entries.map Prod.fst

def lookup (s : Stream ι φ κ) (id : ι) : Option φ := (s.entries.find? fun e => e.1 = id).map Prod.snd

def pendingIds (s : Stream ι φ κ) : List ι :=
  match s.group with
  | some g => g.ids
  | none => []

/-- `⊥` while there is no group: nothing has been delivered. -/
def lastDelivered (s : Stream ι φ κ) : ι :=
  match s.group with
  | some g => g.lastDelivered
  | none => ⊥

def owner (s : Stream ι φ κ) (id : ι) : Option κ := s.group.bind fun g => (g.find id).map Nack.consumer

/-- `XADD`, under an id that the server chose. -/
def xadd (s : Stream ι φ κ) (id : ι) (fields : φ) (h : s.lastId < id) : Stream ι φ κ where
  entries := s.entries ++ [(id, fields)]
  lastId := id
  group := s.group
  sorted := by
    rw [List.map_append]
    refine List.pairwise_append.mpr ⟨s.sorted, List.pairwise_singleton _ _, ?_⟩
    intro x hx y hy
    obtain ⟨e, he, rfl⟩ := List.mem_map.mp hx
    obtain rfl := List.mem_singleton.mp hy
    exact lt_of_le_of_lt (s.bounded e he).2 h
  bounded := by
    intro e he
    rcases List.mem_append.mp he with he | he
    · exact ⟨(s.bounded e he).1, le_of_lt (lt_of_le_of_lt (s.bounded e he).2 h)⟩
    · obtain rfl := List.mem_singleton.mp he
      exact ⟨lt_of_le_of_lt bot_le h, le_refl _⟩
  reached g hg := le_of_lt (lt_of_le_of_lt (s.reached g hg) h)

def withGroup (s : Stream ι φ κ) (g : Group ι κ) (h : g.lastDelivered ≤ s.lastId) : Stream ι φ κ :=
  { s with group := some g, reached := fun _ hg => Option.some.inj hg ▸ h }

/-- `XGROUP CREATE .. 0-0`; `none` is the error `BUSYGROUP`. -/
def xgroupCreate (s : Stream ι φ κ) : Option (Stream ι φ κ) :=
  match s.group with
  | some _ => none
  | none => some (s.withGroup (.startAt ⊥) bot_le)

def undelivered (s : Stream ι φ κ) (g : Group ι κ) (count : Nat) : List (ι × φ) :=
  (s.entries.filter fun e => g.lastDelivered < e.1).take count

theorem undelivered_ids (s : Stream ι φ κ) (g : Group ι κ) (count : Nat) :
    (s.undelivered g count).map Prod.fst = (s.ids.filter fun id => g.lastDelivered < id).take count := by
  unfold undelivered ids
  rw [List.map_take, List.filter_map]
  rfl

theorem sorted_after (s : Stream ι φ κ) (g : Group ι κ) :
    (g.lastDelivered :: s.ids.filter fun id => g.lastDelivered < id).Pairwise (· < ·) := by
  refine List.pairwise_cons.mpr ⟨?_, s.sorted.filter _⟩
  intro x hx
  exact of_decide_eq_true (List.mem_filter.mp hx).2

theorem sorted_undelivered (s : Stream ι φ κ) (g : Group ι κ) (count : Nat) :
    (g.lastDelivered :: (s.undelivered g count).map Prod.fst).Pairwise (· < ·) := by
  rw [undelivered_ids]
  exact (s.sorted_after g).sublist ((List.take_sublist _ _).cons_cons _)

theorem deliver_reached (s : Stream ι φ κ) {g : Group ι κ} (hg : g.lastDelivered ≤ s.lastId) (consumer : κ)
    (count now : Nat) :
    (g.deliver consumer now _ (s.sorted_undelivered g count)).lastDelivered ≤ s.lastId := by
  have hlast := List.getLast_mem (List.cons_ne_nil g.lastDelivered ((s.undelivered g count).map Prod.fst))
  rcases List.mem_cons.mp hlast with h | h
  · exact le_trans (le_of_eq h) hg
  · obtain ⟨e, he, heq⟩ := List.mem_map.mp h
    have hmem := (List.mem_filter.mp (List.mem_of_mem_take he)).1
    exact le_trans (le_of_eq heq.symm) (s.bounded e hmem).2

/-- `XREADGROUP .. >`; `none` is the error `NOGROUP`. -/
def xreadgroup (s : Stream ι φ κ) (consumer : κ) (count now : Nat) : Option (List (ι × φ) × Stream ι φ κ) :=
  match hg : s.group with
  | none => none
  | some g => some (s.undelivered g count,
      s.withGroup (g.deliver consumer now _ (s.sorted_undelivered g count))
        (s.deliver_reached (s.reached g hg) consumer count now))

/-- A change of the group that delivers nothing new. -/
def mapGroup (s : Stream ι φ κ) (f : Group ι κ → Group ι κ)
    (hf : ∀ g, (f g).lastDelivered = g.lastDelivered) : Stream ι φ κ :=
  { s with
    group := s.group.map f
    reached := by
      intro g hg
      obtain ⟨g', hg', rfl⟩ := Option.map_eq_some_iff.mp hg
      rw [hf]
      exact s.reached g' hg' }

/-- `XPENDING key group id id 1`; `none` is the error `NOGROUP`. -/
def xpending (s : Stream ι φ κ) (id : ι) : Option (List (Nack ι κ)) :=
  s.group.map fun g => (g.find id).toList

/-- `XPENDING key group start + count`, the start exclusive unless it is `none`. -/
def xpendingRange (s : Stream ι φ κ) (start : Option ι) (count : Nat) : Option (List (Nack ι κ)) :=
  s.group.map fun g => (g.pending.filter fun n => ∀ id ∈ start, id < n.id).take count

def xack (s : Stream ι φ κ) (id : ι) : Stream ι φ κ := s.mapGroup (·.drop (· = id)) fun _ => rfl

def xdel (s : Stream ι φ κ) (id : ι) : Stream ι φ κ :=
  { s with
    entries := s.entries.filter fun e => e.1 ≠ id
    sorted := s.sorted.sublist (List.filter_sublist.map _)
    bounded := fun e he => s.bounded e (List.mem_filter.mp he).1 }

def claim (s : Stream ι φ κ) (p : ι → Bool) (consumer : κ) (now : Nat) : Stream ι φ κ :=
  s.mapGroup (·.claim p consumer now) fun _ => rfl

def idle (s : Stream ι φ κ) (minIdle now : Nat) (id : ι) : Bool :=
  match s.group.bind (·.find id) with
  | some n => n.deliveredAt + minIdle ≤ now
  | none => false

/-- `XCLAIM` of a list of ids; an entry that is pending but deleted is a nil. -/
def xclaimIds (consumer : κ) (minIdle now : Nat) : List ι → Stream ι φ κ →
    List (Option (ι × φ)) × Stream ι φ κ
  | [], s => ([], s)
  | id :: ids, s =>
    if s.idle minIdle now id then
      let r := xclaimIds consumer minIdle now ids (s.claim (· = id) consumer now)
      ((s.lookup id).map (id, ·) :: r.1, r.2)
    else xclaimIds consumer minIdle now ids s

/-- `XCLAIM`; `none` is the error `NOGROUP`. -/
def xclaim (s : Stream ι φ κ) (consumer : κ) (minIdle now : Nat) (ids : List ι) :
    Option (List (Option (ι × φ)) × Stream ι φ κ) :=
  s.group.map fun _ => xclaimIds consumer minIdle now ids s

/-- What `XAUTOCLAIM` finds: the entries it claims, the pending ids it drops
because their entries are gone, and where the next scan starts. -/
structure Scan (ι φ : Type) where
  claimed : List (ι × φ)
  deleted : List ι
  next : Option ι

/-- The scan of `XAUTOCLAIM`: at most `attempts` pending entries are looked at
and at most `count` are claimed or dropped. -/
def scan (s : Stream ι φ κ) (minIdle now : Nat) : Nat → Nat → List (Nack ι κ) → Scan ι φ
  | _, _, [] => ⟨[], [], none⟩
  | 0, _, n :: _ => ⟨[], [], some n.id⟩
  | _, 0, n :: _ => ⟨[], [], some n.id⟩
  | attempts + 1, count + 1, n :: rest =>
    match s.lookup n.id with
    | none =>
      let r := scan s minIdle now attempts count rest
      { r with deleted := n.id :: r.deleted }
    | some fields =>
      if n.deliveredAt + minIdle ≤ now then
        let r := scan s minIdle now attempts count rest
        { r with claimed := (n.id, fields) :: r.claimed }
      else scan s minIdle now attempts (count + 1) rest

/-- `XAUTOCLAIM`: next start, claimed entries, deleted ids; `none` is `NOGROUP`. -/
def xautoclaim (s : Stream ι φ κ) (consumer : κ) (minIdle : Nat) (start : ι) (count now : Nat) :
    Option (Scan ι φ × Stream ι φ κ) :=
  s.group.map fun g =>
    let r := s.scan minIdle now (count * 10) count (g.pending.filter fun n => start ≤ n.id)
    (r, (s.mapGroup (·.drop (· ∈ r.deleted)) fun _ => rfl).claim (· ∈ r.claimed.map Prod.fst) consumer now)

end Stream

end Redis
