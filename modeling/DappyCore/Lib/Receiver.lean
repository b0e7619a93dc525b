import Mathlib.Data.Nat.Notation
import Mathlib.Data.List.Basic

/-!
A receiver of a broadcast channel that keeps only the last messages, in so many slots. One that
comes for a message that is gone is told that it lags, and goes on with the oldest there is.
-/

namespace DappyCore.Lib.Receiver

variable {α : Type}

inductive Received (α : Type)
  | value (a : α)
  | lagged
  | closed
  | pending

/-- What a receiver gets that has come to this place of the stream, and the place it is at then. -/
def receive (slots : ℕ) (sent : List α) (isOpen : Bool) (next : ℕ) : Received α × ℕ :=
  if slots < sent.length - next then (.lagged, sent.length - slots)
  else
    match sent[next]? with
    | some a => (.value a, next + 1)
    | none => (if isOpen then .pending else .closed, next)

variable {slots : ℕ} {sent : List α} {isOpen : Bool} {next : ℕ}

lemma receive_lagged (h : slots < sent.length - next) :
    receive slots sent isOpen next = (.lagged, sent.length - slots) := if_pos h

lemma receive_value (h : ¬ slots < sent.length - next) (hlt : next < sent.length) :
    receive slots sent isOpen next = (.value sent[next], next + 1) := by
  rw [receive, if_neg h, List.getElem?_eq_getElem hlt]

lemma receive_empty (h : sent.length ≤ next) :
    receive slots sent isOpen next = (if isOpen then .pending else .closed, next) := by
  rw [receive, if_neg (by omega), List.getElem?_eq_none h]

end DappyCore.Lib.Receiver
