import Mathlib.Data.Int.Order.Basic

/-!
# Volatile string keys

A key written with `SET .. NX PX p` at time `t` exists during `[t, t + p)`
unless it is deleted. Times are whole milliseconds of the server's clock.
-/

namespace Redis

structure Volatile (α : Type) where
  value : α
  expiresAt : Nat
deriving DecidableEq, Repr

/-- A key as the server holds it: an expired value may still be stored. -/
abbrev Key (α : Type) := Option (Volatile α)

namespace Key
variable {α : Type}

def get (k : Key α) (now : Nat) : Option α :=
  match k with
  | some v => if now < v.expiresAt then some v.value else none
  | none => none

/-- `SET key value NX PX px`: whether the value was stored, and the key. -/
def setNxPx (k : Key α) (value : α) (px now : Nat) : Bool × Key α :=
  match k.get now with
  | some _ => (false, k)
  | none => (true, some ⟨value, now + px⟩)

/-- `PTTL`: the remaining milliseconds, or `-2` when there is no key. -/
def pttl (k : Key α) (now : Nat) : Int :=
  match k with
  | some v => if now < v.expiresAt then (v.expiresAt : Int) - now else -2
  | none => -2

@[simp] theorem get_none (now : Nat) : get (none : Key α) now = none := rfl

theorem get_some (v : Volatile α) (now : Nat) :
    get (some v) now = if now < v.expiresAt then some v.value else none := rfl

theorem get_live {v : Volatile α} {now : Nat} (h : now < v.expiresAt) : get (some v) now = some v.value :=
  if_pos h

theorem get_expired {v : Volatile α} {now : Nat} (h : v.expiresAt ≤ now) : get (some v) now = none :=
  if_neg (Nat.not_lt.mpr h)

theorem get_eq_some {k : Key α} {now : Nat} {a : α} :
    k.get now = some a ↔ ∃ v, k = some v ∧ now < v.expiresAt ∧ v.value = a := by
  cases k with
  | none => simp
  | some v => simp [get_some]

theorem setNxPx_live {k : Key α} {now : Nat} {a : α} (h : k.get now = some a) (value : α) (px : Nat) :
    k.setNxPx value px now = (false, k) := by
  simp [setNxPx, h]

theorem setNxPx_free {k : Key α} {now : Nat} (h : k.get now = none) (value : α) (px : Nat) :
    k.setNxPx value px now = (true, some ⟨value, now + px⟩) := by
  simp [setNxPx, h]

theorem pttl_live {v : Volatile α} {now : Nat} (h : now < v.expiresAt) :
    pttl (some v) now = (v.expiresAt : Int) - now := if_pos h

end Key

end Redis
