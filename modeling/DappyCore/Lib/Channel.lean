import Mathlib.Data.Nat.Notation
import DappyCore.Lib.HashMap

/-!
Channels. An unbounded channel keeps everything it was given, and refuses more once its
receiver is gone. A broadcast channel has any number of receivers, each with the place in
the stream it has come to.
-/

namespace DappyCore.Lib

structure Mpsc (α : Type) where
  sent : List α
  alive : Bool

namespace Mpsc

variable {α : Type}

def opened : Mpsc α := ⟨[], true⟩
def closed : Mpsc α := ⟨[], false⟩
def push (c : Mpsc α) (a : α) : Mpsc α := { c with sent := c.sent ++ [a] }
def drop (c : Mpsc α) : Mpsc α := { c with alive := false }

@[simp] lemma sent_push (c : Mpsc α) (a : α) : (c.push a).sent = c.sent ++ [a] := rfl
@[simp] lemma alive_push (c : Mpsc α) (a : α) : (c.push a).alive = c.alive := rfl
@[simp] lemma sent_drop (c : Mpsc α) : c.drop.sent = c.sent := rfl

end Mpsc

/-- Everything sent while there was a receiver, and how far each receiver has read. -/
structure Broadcast (K α : Type) where
  sent : List α
  receivers : HashMap K ℕ

namespace Broadcast

variable {K α : Type} [DecidableEq K]

def new : Broadcast K α := ⟨[], ∅⟩

def receiverCount (b : Broadcast K α) : ℕ := b.receivers.entries.length

/-- A new receiver sees what is sent from now on. -/
def subscribe (b : Broadcast K α) (k : K) : Broadcast K α :=
  { b with receivers := b.receivers.insert k b.sent.length }

def unsubscribe (b : Broadcast K α) (k : K) : Broadcast K α :=
  { b with receivers := b.receivers.erase k }

def send (b : Broadcast K α) (a : α) : Broadcast K α := { b with sent := b.sent ++ [a] }

/-- What a receiver has been sent so far, if it does not lag behind. -/
def heard (b : Broadcast K α) (k : K) : List α :=
  match b.receivers.lookup k with
  | some n => b.sent.drop n
  | none => []

variable {b : Broadcast K α} {k : K}

lemma heard_of_lookup {n : ℕ} (h : b.receivers.lookup k = some n) : b.heard k = b.sent.drop n := by
  rw [heard, h]

lemma receiverCount_pos (h : (b.receivers.lookup k).isSome) : 0 < b.receiverCount := by
  obtain ⟨n, hn⟩ := Option.isSome_iff_exists.mp h
  exact List.length_pos_of_mem (HashMap.mem_entries_iff.mpr hn)

end Broadcast

end DappyCore.Lib
