import DappyCore.Lib.HashMap
import DappyCore.MuxMessage

/-!
The table that maps the sequence numbers of the editor's requests to upstream ones, and the
rewriting of `cancel` requests through it.
-/

namespace DappyCore.Remapper

open Lib Json MuxMessage

/-- Opaque sequence number from a downstream client. -/
structure ClientSeq where
  raw : ℤ
  deriving DecidableEq

/-- Opaque sequence number on the upstream connection. -/
structure BackendSeq where
  raw : ℤ
  deriving DecidableEq

structure MessageRemapper where
  forward : HashMap ClientSeq BackendSeq
  reverse : HashMap BackendSeq ClientSeq

namespace MessageRemapper

def new : MessageRemapper := ⟨∅, ∅⟩

def map (r : MessageRemapper) (clientSeq : ClientSeq) (backendSeq : BackendSeq) :
    MessageRemapper :=
  ⟨r.forward.insert clientSeq backendSeq, r.reverse.insert backendSeq clientSeq⟩

def unmap (r : MessageRemapper) (backendSeq : BackendSeq) : MessageRemapper × Option ClientSeq :=
  match r.reverse.lookup backendSeq with
  | none => (r, none)
  | some clientSeq =>
    (⟨r.forward.erase clientSeq, r.reverse.erase backendSeq⟩, some clientSeq)

def lookupBackend (r : MessageRemapper) (clientSeq : ClientSeq) : Option BackendSeq :=
  r.forward.lookup clientSeq

def lookupClient (r : MessageRemapper) (backendSeq : BackendSeq) : Option ClientSeq :=
  r.reverse.lookup backendSeq

variable {r : MessageRemapper} {c : ClientSeq} {b : BackendSeq}

lemma lookupClient_map (r : MessageRemapper) (c : ClientSeq) (b b' : BackendSeq) :
    (r.map c b).lookupClient b' = if b' = b then some c else r.lookupClient b' :=
  HashMap.lookup_insert_of

lemma lookupBackend_map (r : MessageRemapper) (c c' : ClientSeq) (b : BackendSeq) :
    (r.map c b).lookupBackend c' = if c' = c then some b else r.lookupBackend c' :=
  HashMap.lookup_insert_of

lemma unmap_snd (r : MessageRemapper) (b : BackendSeq) : (r.unmap b).2 = r.lookupClient b := by
  unfold unmap lookupClient
  split <;> simp_all

lemma unmap_of_none (h : r.lookupClient b = none) : r.unmap b = (r, none) := by
  unfold lookupClient at h
  simp [unmap, h]

lemma lookupClient_unmap (r : MessageRemapper) (b b' : BackendSeq) :
    (r.unmap b).1.lookupClient b' = if b' = b then none else r.lookupClient b' := by
  cases h : r.lookupClient b with
  | none =>
    rw [unmap_of_none h]
    split_ifs with hb
    · rw [hb, h]
    · rfl
  | some c =>
    unfold lookupClient at h ⊢
    simp only [unmap, h]
    exact HashMap.lookup_erase_of

lemma lookupBackend_unmap (h : r.lookupClient b = some c) (c' : ClientSeq) :
    (r.unmap b).1.lookupBackend c' = if c' = c then none else r.lookupBackend c' := by
  unfold lookupClient at h
  simp only [unmap, h, lookupBackend]
  exact HashMap.lookup_erase_of

/-- What the forward table knows, the reverse table knows too. The converse fails once a
client reuses a number that is still mapped. -/
def Sound (r : MessageRemapper) : Prop :=
  ∀ c b, r.lookupBackend c = some b → r.lookupClient b = some c

lemma sound_new : Sound new := fun c b h => by simp [new, lookupBackend] at h

lemma Sound.map (h : Sound r) (hb : r.lookupClient b = none) (c : ClientSeq) :
    Sound (r.map c b) := by
  intro c' b' h'
  rw [lookupBackend_map] at h'
  rw [lookupClient_map]
  split_ifs at h' with hc
  · obtain rfl := Option.some.inj h'
    rw [if_pos rfl, hc]
  · have hr := h c' b' h'
    have hne : b' ≠ b := by rintro rfl; simp [hb] at hr
    rw [if_neg hne, hr]

lemma Sound.unmap (h : Sound r) (b : BackendSeq) : Sound (r.unmap b).1 := by
  cases hb : r.lookupClient b with
  | none => rwa [unmap_of_none hb]
  | some c =>
    intro c' b' h'
    rw [lookupBackend_unmap hb] at h'
    split_ifs at h' with hc
    have hr := h c' b' h'
    rw [lookupClient_unmap, hr]
    have hne : b' ≠ b := by
      rintro rfl
      exact hc (Option.some.inj (hr.symm.trans hb))
    rw [if_neg hne]

end MessageRemapper

/-- Rewrites `cancel.arguments.requestId` from a client sequence to the upstream sequence
when a mapping exists; also returns whether it did. -/
def translateCancel (request : Value) (remapper : MessageRemapper) : Value × Bool :=
  match cancelRequestId request with
  | none => (request, false)
  | some referenced =>
    match remapper.lookupBackend ⟨referenced⟩ with
    | some backend => setCancelRequestId request backend.raw
    | none => (request, false)

lemma get_translateCancel_of_ne {key : String} (h : key ≠ "arguments") (v : Value)
    (r : MessageRemapper) : (translateCancel v r).1.get key = v.get key := by
  unfold translateCancel
  split
  · rfl
  · split
    · exact get_setCancelRequestId_of_ne h _ _
    · rfl

end DappyCore.Remapper
