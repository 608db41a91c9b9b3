import Mathlib

/-!
This module contains keys with a time to live: a store whose entries are there until they expire,
and the commands that read and write one of them at a point in time.
-/

namespace Ttl

structure Entry (α : Type) where
  value : α
  expiresAt : Option Int

/--
What is stored under each key. An entry that has expired may still be here.
-/
abbrev Keyspace (κ α : Type) := κ → Option (Entry α)

namespace Keyspace

variable {κ α : Type}

def empty : Keyspace κ α := fun _ => none

/--
The entry of a key that is there at the time `now`.
-/
def live (ks : Keyspace κ α) (now : Int) (key : κ) : Option (Entry α) :=
  (ks key).filter fun e => e.expiresAt.all (now < ·)

def get? (ks : Keyspace κ α) (now : Int) (key : κ) : Option α :=
  (ks.live now key).map Entry.value

theorem live_eq_some {ks : Keyspace κ α} {now : Int} {key : κ} {e : Entry α}
    : ks.live now key = some e ↔ ks key = some e ∧ ∀ t ∈ e.expiresAt, now < t := by
  unfold live
  rw [Option.filter_eq_some_iff]
  cases e.expiresAt <;> simp

variable [DecidableEq κ]

def put (ks : Keyspace κ α) (key : κ) (e : Entry α) : Keyspace κ α :=
  Function.update ks key (some e)

def del (ks : Keyspace κ α) (key : κ) : Keyspace κ α :=
  Function.update ks key none

/--
Set a key with a time to live if it is not there. Returns whether it was set.
-/
def setNx (ks : Keyspace κ α) (now : Int) (key : κ) (value : α) (ttl : Int) : Keyspace κ α × Bool :=
  if (ks.live now key).isSome then
    (ks, false)
  else
    (ks.put key { value, expiresAt := some (now + ttl) }, true)

/--
Change the value of a key, which keeps its time to live. A key that is not there is created without
one.
-/
def modify (ks : Keyspace κ α) (now : Int) (key : κ) (f : Option α → α) : Keyspace κ α :=
  ks.put key {
    value := f (ks.get? now key)
    expiresAt := (ks.live now key).bind Entry.expiresAt
  }

/--
Set the time to live of a key that is there.
-/
def expire (ks : Keyspace κ α) (now : Int) (key : κ) (ttl : Int) : Keyspace κ α :=
  match ks.live now key with
  | some e => ks.put key { e with expiresAt := some (now + ttl) }
  | none => ks

@[simp]
theorem put_self (ks : Keyspace κ α) (key : κ) (e : Entry α) : ks.put key e key = some e := by
  simp [put]

theorem put_of_ne (ks : Keyspace κ α) {key key' : κ} (e : Entry α) (h : key' ≠ key)
    : ks.put key e key' = ks key' := by
  simp [put, h]

@[simp]
theorem del_self (ks : Keyspace κ α) (key : κ) : ks.del key key = none := by
  simp [del]

theorem del_of_ne (ks : Keyspace κ α) {key key' : κ} (h : key' ≠ key)
    : ks.del key key' = ks key' := by
  simp [del, h]

theorem modify_of_ne (ks : Keyspace κ α) (now : Int) {key key' : κ} (f : Option α → α)
    (h : key' ≠ key) : ks.modify now key f key' = ks key' :=
  put_of_ne ks _ h

theorem expire_of_ne (ks : Keyspace κ α) (now : Int) {key key' : κ} (ttl : Int)
    (h : key' ≠ key) : ks.expire now key ttl key' = ks key' := by
  unfold expire
  cases ks.live now key with
  | none => rfl
  | some e => exact put_of_ne ks _ h

/--
A value that is changed and gets a new time to live at the same time.
-/
theorem expire_modify_self (ks : Keyspace κ α) (now : Int) (key : κ) (f : Option α → α) (ttl : Int)
    : (ks.modify now key f).expire now key ttl key
      = some { value := f (ks.get? now key), expiresAt := some (now + ttl) } := by
  have hlive : (ks.modify now key f).live now key = some {
      value := f (ks.get? now key)
      expiresAt := (ks.live now key).bind Entry.expiresAt
    } := by
    rw [live_eq_some]
    refine ⟨put_self ks key _, ?_⟩
    intro t ht
    have ⟨e, he, het⟩ := Option.bind_eq_some_iff.mp ht
    exact (live_eq_some.mp he).2 t het
  unfold expire
  rw [hlive]
  exact put_self _ key _

end Keyspace
end Ttl
