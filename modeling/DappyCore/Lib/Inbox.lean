import Mathlib.Data.List.Basic
import Mathlib.Data.List.Infix
import Mathlib.Data.List.Nodup

/-!
An inbox: a connection that is read one item after another, and the items that were taken
from it and put aside for later. A wait for an item that fits either looks among those first or
reads on, and puts aside, or drops, what does not fit.
-/

namespace DappyCore.Lib

open scoped List

variable {α ε : Type}

/-- What comes in. A pause lasts longer than any deadline that is running; after the last
arrival nothing ever comes. -/
inductive Arrival (α ε : Type)
  | item (a : α)
  | pause
  | failed (e : ε)
  | closed

/-- Why a wait ended without an item. -/
inductive Ended (ε : Type)
  | paused
  | failed (e : ε)
  | closed
  deriving DecidableEq

namespace Arrival

def item? : Arrival α ε → Option α
  | item a => some a
  | _ => none

end Arrival

/-- The items among the arrivals. -/
def items (arrivals : List (Arrival α ε)) : List α := arrivals.filterMap Arrival.item?

section Items

variable (rest : List (Arrival α ε))

@[simp] lemma items_nil : items ([] : List (Arrival α ε)) = [] := rfl
@[simp] lemma items_item (a : α) : items (.item a :: rest) = a :: items rest := rfl
@[simp] lemma items_pause : items (.pause :: rest) = items rest := rfl
@[simp] lemma items_failed (e : ε) : items (.failed e :: rest) = items rest := rfl
@[simp] lemma items_closed : items (.closed :: rest) = items rest := rfl

lemma items_append (l rest : List (Arrival α ε)) : items (l ++ rest) = items l ++ items rest :=
  List.filterMap_append

end Items

@[simp] lemma items_map_item (l : List α) : items (l.map (Arrival.item (ε := ε))) = l := by
  simp [items, List.filterMap_map, Function.comp_def, Arrival.item?]

/-- A stretch of the connection: the items that did not fit, how it ended, and what is left. -/
structure Scanned (α ε : Type) where
  skipped : List α
  result : Except (Ended ε) α
  rest : List (Arrival α ε)

/-- Read until an item fits. One who is patient waits through pauses. A connection that is
closed stays closed. -/
def scan (patient : Bool) (fits : α → Bool) : List (Arrival α ε) → Scanned α ε
  | [] => ⟨[], .error .paused, []⟩
  | .item a :: rest =>
    if fits a then ⟨[], .ok a, rest⟩
    else { scan patient fits rest with skipped := a :: (scan patient fits rest).skipped }
  | .pause :: rest => if patient then scan patient fits rest else ⟨[], .error .paused, rest⟩
  | .failed e :: rest => ⟨[], .error (.failed e), rest⟩
  | .closed :: rest => ⟨[], .error .closed, .closed :: rest⟩

namespace Scanned

/-- The item that ended the wait. -/
def found (s : Scanned α ε) : List α :=
  match s.result with
  | .ok a => [a]
  | .error _ => []

/-- Everything taken. -/
def items (s : Scanned α ε) : List α := s.skipped ++ s.found

end Scanned

section Scan

variable {patient : Bool} {fits : α → Bool} {a : α} {l : List α}
  {arrivals rest : List (Arrival α ε)}

lemma scan_item_of_fits (h : fits a) :
    scan patient fits (.item a :: rest) = ⟨[], .ok a, rest⟩ := by
  simp [scan, h]

lemma scan_item_of_not (h : fits a = false) :
    scan patient fits (.item a :: rest) =
      { scan patient fits rest with skipped := a :: (scan patient fits rest).skipped } := by
  simp [scan, h]

/-- Nothing is lost between what is taken and what is left. -/
lemma items_scan (patient : Bool) (fits : α → Bool) (arrivals : List (Arrival α ε)) :
    items arrivals =
      (scan patient fits arrivals).items ++ items (scan patient fits arrivals).rest := by
  induction arrivals with
  | nil => simp [scan, Scanned.items, Scanned.found]
  | cons e rest ih =>
    cases e with
    | item a =>
      by_cases h : fits a
      · simp [scan_item_of_fits h, Scanned.items, Scanned.found]
      · rw [Bool.not_eq_true] at h
        rw [scan_item_of_not h, items_item, ih]
        simp [Scanned.items, Scanned.found]
    | pause =>
      cases patient with
      | true => exact ih
      | false => simp [scan, Scanned.items, Scanned.found]
    | failed e => simp [scan, Scanned.items, Scanned.found]
    | closed => simp [scan, Scanned.items, Scanned.found]

lemma failed_mem_of_scan {e : ε} (h : (scan patient fits arrivals).result = .error (.failed e)) :
    .failed e ∈ arrivals := by
  induction arrivals with
  | nil => simp [scan] at h
  | cons r rest ih =>
    cases r with
    | item b =>
      by_cases hb : fits b
      · simp [scan_item_of_fits hb] at h
      · rw [Bool.not_eq_true] at hb
        rw [scan_item_of_not hb] at h
        exact List.mem_cons_of_mem _ (ih h)
    | pause =>
      cases patient with
      | true => exact List.mem_cons_of_mem _ (ih h)
      | false => simp [scan] at h
    | failed e' => simp_all [scan]
    | closed => simp [scan] at h

/-- The connection is read from its front. -/
lemma scan_rest_suffix (patient : Bool) (fits : α → Bool) (arrivals : List (Arrival α ε)) :
    (scan patient fits arrivals).rest <:+ arrivals := by
  induction arrivals with
  | nil => exact List.suffix_rfl
  | cons r rest ih =>
    cases r with
    | item b =>
      by_cases hb : fits b
      · simp [scan_item_of_fits hb]
      · rw [Bool.not_eq_true] at hb
        rw [scan_item_of_not hb]
        exact ih.trans (List.suffix_cons _ _)
    | pause =>
      cases patient with
      | true => exact ih.trans (List.suffix_cons _ _)
      | false => simp [scan]
    | failed e => simp [scan]
    | closed => exact List.suffix_rfl

lemma fits_of_scan (h : (scan patient fits arrivals).result = .ok a) : fits a := by
  induction arrivals with
  | nil => simp [scan] at h
  | cons e rest ih =>
    cases e with
    | item b =>
      by_cases hb : fits b
      · rw [scan_item_of_fits hb] at h
        obtain rfl := Except.ok.inj h
        exact hb
      · rw [Bool.not_eq_true] at hb
        rw [scan_item_of_not hb] at h
        exact ih h
    | pause =>
      cases patient with
      | true => exact ih h
      | false => simp [scan] at h
    | failed e => simp [scan] at h
    | closed => simp [scan] at h

/-- Items that do not fit are passed over. -/
lemma scan_append (h : ∀ b ∈ l, fits b = false) :
    scan patient fits (l.map .item ++ rest) =
      { scan patient fits rest with skipped := l ++ (scan patient fits rest).skipped } := by
  induction l with
  | nil => rfl
  | cons b l ih =>
    obtain ⟨hb, hl⟩ := List.forall_mem_cons.mp h
    rw [List.map_cons, List.cons_append, scan_item_of_not hb, ih hl]
    rfl

/-- What a wait comes to past an item: that one, or what it comes to after it. -/
lemma scan_item_cases {patient : Bool} {b : α}
    (h : scan patient fits (.item b :: arrivals) = ⟨l, .ok a, rest⟩) :
    (fits b ∧ l = [] ∧ b = a ∧ arrivals = rest) ∨
      fits b = false ∧ ∃ l', l = b :: l' ∧ scan patient fits arrivals = ⟨l', .ok a, rest⟩ := by
  by_cases hb : fits b
  · rw [scan_item_of_fits hb] at h
    obtain ⟨hl, hr, hrest⟩ := Scanned.mk.inj h
    exact .inl ⟨hb, hl.symm, Except.ok.inj hr, hrest⟩
  · rw [Bool.not_eq_true] at hb
    rw [scan_item_of_not hb] at h
    rcases hs : scan patient fits arrivals with ⟨l', r, rest'⟩
    rw [hs] at h
    obtain ⟨rfl, rfl, rfl⟩ := Scanned.mk.inj h
    exact .inr ⟨hb, l', rfl, rfl⟩

/-- The connection brings an item that fits, after others that do not, before it pauses. -/
structure Brings (fits : α → Bool) (arrivals : List (Arrival α ε)) (l : List α) (a : α)
    (rest : List (Arrival α ε)) : Prop where
  arrivals : arrivals = l.map .item ++ .item a :: rest
  skips : ∀ b ∈ l, fits b = false
  fits : fits a

/-- **A wait that pauses end** comes to an item exactly when the connection brings it. -/
theorem scan_eq_ok_iff :
    scan false fits arrivals = ⟨l, .ok a, rest⟩ ↔ Brings fits arrivals l a rest := by
  constructor
  · intro h
    induction arrivals generalizing l with
    | nil => simp [scan] at h
    | cons e arrivals ih =>
      cases e with
      | item b =>
        rcases scan_item_cases h with ⟨hb, rfl, rfl, rfl⟩ | ⟨hb, l', rfl, hs⟩
        · exact ⟨rfl, by simp, hb⟩
        · obtain ⟨rfl, hl, ha⟩ := ih hs
          exact ⟨rfl, List.forall_mem_cons.mpr ⟨hb, hl⟩, ha⟩
      | pause => simp [scan] at h
      | failed e => simp [scan] at h
      | closed => simp [scan] at h
  · rintro ⟨rfl, hl, ha⟩
    rw [scan_append hl, scan_item_of_fits ha]
    simp

/-- In time the connection brings an item that fits, after pauses and others that do not. -/
inductive Reaches (fits : α → Bool) :
    List (Arrival α ε) → List α → α → List (Arrival α ε) → Prop
  | here (a : α) (rest : List (Arrival α ε)) (ha : fits a) :
    Reaches fits (.item a :: rest) [] a rest
  | past (arrivals : List (Arrival α ε)) (b : α) (l : List α) (a : α) (rest : List (Arrival α ε))
      (hb : fits b = false) (h : Reaches fits arrivals l a rest) :
    Reaches fits (.item b :: arrivals) (b :: l) a rest
  | pause (arrivals : List (Arrival α ε)) (l : List α) (a : α) (rest : List (Arrival α ε))
      (h : Reaches fits arrivals l a rest) :
    Reaches fits (.pause :: arrivals) l a rest

/-- **A patient wait** comes to an item exactly when the connection brings it in time. -/
theorem scan_patient_eq_ok_iff :
    scan true fits arrivals = ⟨l, .ok a, rest⟩ ↔ Reaches fits arrivals l a rest := by
  constructor
  · intro h
    induction arrivals generalizing l with
    | nil => simp [scan] at h
    | cons e arrivals ih =>
      cases e with
      | item b =>
        rcases scan_item_cases h with ⟨hb, rfl, rfl, rfl⟩ | ⟨hb, l', rfl, hs⟩
        · exact .here _ _ hb
        · exact .past _ _ _ _ _ hb (ih hs)
      | pause => exact .pause _ _ _ _ (ih h)
      | failed e => simp [scan] at h
      | closed => simp [scan] at h
  · intro h
    induction h with
    | here a rest ha => exact scan_item_of_fits ha
    | past arrivals b l a rest hb _ ih => rw [scan_item_of_not hb, ih]
    | pause arrivals l a rest _ ih => exact ih

lemma brings_cons_of_not {b : α} (hb : fits b = false) (h : Brings fits arrivals l a rest) :
    Brings fits (.item b :: arrivals) (b :: l) a rest :=
  ⟨by rw [h.arrivals]; rfl, List.forall_mem_cons.mpr ⟨hb, h.skips⟩, h.fits⟩

lemma Brings.reaches (h : Brings fits arrivals l a rest) : Reaches fits arrivals l a rest := by
  obtain ⟨rfl, hl, ha⟩ := h
  induction l with
  | nil => exact .here a rest ha
  | cons b l ih =>
    obtain ⟨hb, hl⟩ := List.forall_mem_cons.mp hl
    exact .past _ b l a rest hb (ih hl)

lemma Reaches.skips (h : Reaches fits arrivals l a rest) : ∀ b ∈ l, fits b = false := by
  induction h with
  | here a rest ha => simp
  | past arrivals b l a rest hb _ ih => exact List.forall_mem_cons.mpr ⟨hb, ih⟩
  | pause arrivals l a rest _ ih => exact ih

lemma Reaches.fits_item (h : Reaches fits arrivals l a rest) : fits a := by
  induction h with
  | here a rest ha => exact ha
  | past arrivals b l a rest _ _ ih => exact ih
  | pause arrivals l a rest _ ih => exact ih

/-- After items that do not fit it is still to come. -/
lemma Reaches.after {early : List α} (h : Reaches fits (early.map .item ++ arrivals) l a rest)
    (he : ∀ b ∈ early, fits b = false) :
    ∃ l', l = early ++ l' ∧ Reaches fits arrivals l' a rest := by
  induction early generalizing l with
  | nil => exact ⟨l, rfl, h⟩
  | cons b early ih =>
    obtain ⟨hb, he⟩ := List.forall_mem_cons.mp he
    cases h with
    | here _ _ ha => simp [hb] at ha
    | past _ _ l _ _ _ h =>
      obtain ⟨l', rfl, h'⟩ := ih h he
      exact ⟨l', rfl, h'⟩

/-- A connection brings the first item that fits of those it begins with. -/
lemma exists_brings {a : α} (ha : a ∈ l) (hf : fits a) (arrivals : List (Arrival α ε)) :
    ∃ l' a' rest, Brings fits (l.map .item ++ arrivals) l' a' rest := by
  induction l with
  | nil => simp at ha
  | cons b l ih =>
    by_cases hb : fits b
    · exact ⟨[], b, _, rfl, by simp, hb⟩
    · rw [Bool.not_eq_true] at hb
      have ha' : a ∈ l := by
        rcases List.mem_cons.mp ha with rfl | h
        · simp [hf] at hb
        · exact h
      obtain ⟨l', a', rest, h⟩ := ih ha'
      exact ⟨b :: l', a', rest, brings_cons_of_not hb h⟩

lemma items_of_brings (h : Brings fits arrivals l a rest) :
    items arrivals = l ++ a :: items rest := by
  rw [h.arrivals, items_append, items_map_item, items_item]

lemma items_of_reaches (h : Reaches fits arrivals l a rest) :
    items arrivals = l ++ a :: items rest := by
  induction h with
  | here a rest ha => rfl
  | past arrivals b l a rest _ _ ih => rw [items_item, ih, List.cons_append]
  | pause arrivals l a rest _ ih => rw [items_pause, ih]

/-- It is the first of all the items that fits. -/
lemma find?_of_brings (h : Brings fits arrivals l a rest) (n : ℕ) :
    ((items arrivals).zipIdx n).find? (fun x => fits x.1) = some (a, n + l.length) := by
  have hl : (l.zipIdx n).find? (fun x => fits x.1) = none := by
    rw [List.find?_eq_none]
    intro x hx
    rw [h.skips x.1 (List.fst_mem_of_mem_zipIdx hx)]
    exact Bool.false_ne_true
  rw [items_of_brings h, List.zipIdx_append, List.find?_append, hl]
  simp [h.fits]

/-- Items that had come in are among those passed over, or reach beyond what was brought. -/
lemma Brings.split {early : List α} {late : List (Arrival α ε)}
    (h : Brings fits (early.map .item ++ late) l a rest) :
    (∃ l', l = early ++ l') ∨ ∃ l', early = l ++ a :: l' ∧ rest = l'.map .item ++ late := by
  have hinj : Function.Injective (Arrival.item (α := α) (ε := ε)) := fun _ _ => Arrival.item.inj
  rcases List.append_eq_append_iff.mp h.arrivals with ⟨l', hl, -⟩ | ⟨l', hl, hr⟩
  · obtain ⟨l₁, l₂, rfl, h₁, -⟩ := List.map_eq_append_iff.mp hl
    exact .inl ⟨l₂, by rw [List.map_injective_iff.mpr hinj h₁]⟩
  · obtain ⟨l₁, l₂, rfl, h₁, rfl⟩ := List.map_eq_append_iff.mp hl
    obtain rfl := List.map_injective_iff.mpr hinj h₁
    cases l₂ with
    | nil => exact .inl ⟨[], by simp⟩
    | cons b l₂ =>
      obtain ⟨hb, rfl⟩ := List.cons.inj hr
      obtain rfl := Arrival.item.inj hb
      exact .inr ⟨l₂, rfl, rfl⟩

/-- What the connection brings is determined. -/
lemma Brings.unique {l' : List α} {a' : α} {rest' : List (Arrival α ε)}
    (h : Brings fits arrivals l a rest) (h' : Brings fits arrivals l' a' rest') :
    l = l' ∧ a = a' ∧ rest = rest' := by
  have he := (scan_eq_ok_iff.mpr h).symm.trans (scan_eq_ok_iff.mpr h')
  obtain ⟨hl, ha, hr⟩ := Scanned.mk.inj he
  exact ⟨hl, Except.ok.inj ha, hr⟩

/-- The connection brings these items, and then it pauses or is at its end. -/
inductive Lulls : List (Arrival α ε) → List α → List (Arrival α ε) → Prop
  | silent (l : List α) : Lulls (l.map .item) l []
  | pause (l : List α) (rest : List (Arrival α ε)) : Lulls (l.map .item ++ .pause :: rest) l rest
  | closed (l : List α) (rest : List (Arrival α ε)) :
    Lulls (l.map .item ++ .closed :: rest) l (.closed :: rest)

lemma Lulls.cons (a : α) (h : Lulls arrivals l rest) :
    Lulls (.item a :: arrivals) (a :: l) rest := by
  cases h with
  | silent => exact .silent (a :: l)
  | pause => exact .pause (a :: l) rest
  | closed => exact .closed (a :: l) _

/-- **Reading on and on** ends without a failure exactly at a lull. -/
theorem scan_never_iff :
    (∃ e, (∀ x, e ≠ .failed x) ∧ scan false (fun _ => false) arrivals = ⟨l, .error e, rest⟩) ↔
      Lulls arrivals l rest := by
  constructor
  · rintro ⟨e, he, h⟩
    -- it reads up to the first arrival that is no item
    induction arrivals generalizing l with
    | nil =>
      obtain ⟨rfl, -, rfl⟩ := Scanned.mk.inj h
      exact .silent []
    | cons r arrivals ih =>
      cases r with
      | item b =>
        rw [scan_item_of_not rfl] at h
        rcases hs : scan false (fun _ => false) arrivals with ⟨l', r, rest'⟩
        rw [hs] at h
        obtain ⟨rfl, rfl, rfl⟩ := Scanned.mk.inj h
        exact (ih hs).cons b
      | pause =>
        obtain ⟨rfl, -, rfl⟩ := Scanned.mk.inj h
        exact .pause [] _
      | failed x =>
        obtain ⟨-, hx, -⟩ := Scanned.mk.inj h
        exact absurd (Except.error.inj hx).symm (he x)
      | closed =>
        obtain ⟨rfl, -, rfl⟩ := Scanned.mk.inj h
        exact .closed [] _
  · -- nothing of what is read ends the scan
    have hno : ∀ b ∈ l, (fun _ : α => false) b = false := fun _ _ => rfl
    intro h
    cases h with
    | silent =>
      refine ⟨.paused, by simp, ?_⟩
      rw [← List.append_nil (l.map _), scan_append hno]
      simp [scan]
    | pause =>
      refine ⟨.paused, by simp, ?_⟩
      rw [scan_append hno]
      simp [scan]
    | closed =>
      refine ⟨.closed, by simp, ?_⟩
      rw [scan_append hno]
      simp [scan]

end Scan

/-- A connection, how many items were taken from it, and those that were put aside, each with
its place among all that came in. -/
structure Inbox (α ε : Type) where
  arrivals : List (Arrival α ε)
  taken : ℕ
  pending : List (α × ℕ)

namespace Inbox

/-- What is still to come. -/
def wire (b : Inbox α ε) : List (α × ℕ) := (items b.arrivals).zipIdx b.taken

/-- By its place every item differs from every other. -/
lemma nodup_wire (b : Inbox α ε) : b.wire.Nodup := by
  refine List.Nodup.of_map Prod.snd ?_
  rw [wire, List.zipIdx_map_snd]
  exact List.nodup_range' _

def advance (b : Inbox α ε) (s : Scanned α ε) : Inbox α ε :=
  { b with arrivals := s.rest, taken := b.taken + s.items.length }

/-- Read until an item fits, and put aside what does not. -/
def seek (patient : Bool) (fits : α → Bool) (b : Inbox α ε) :
    Except (Ended ε) (α × ℕ) × Inbox α ε :=
  let s := scan patient fits b.arrivals
  (s.result.map fun a => (a, b.taken + s.skipped.length),
    { b.advance s with pending := b.pending ++ s.skipped.zipIdx b.taken })

/-- Read until an item fits, and drop what does not. -/
def skip (fits : α → Bool) (b : Inbox α ε) : Except (Ended ε) (α × ℕ) × Inbox α ε :=
  let s := scan false fits b.arrivals
  (s.result.map fun a => (a, b.taken + s.skipped.length), b.advance s)

/-- Everything that comes in before a pause or the end. A failure drops it. -/
def gather (b : Inbox α ε) : Except ε (List (α × ℕ)) × Inbox α ε :=
  let s := scan false (fun _ => false) b.arrivals
  (match s.result with
    | .error (.failed e) => .error e
    | _ => .ok (s.skipped.zipIdx b.taken),
    b.advance s)

/-- The first of the items put aside that fits. -/
def pick (fits : α → Bool) (b : Inbox α ε) : Option (α × ℕ) × Inbox α ε :=
  (b.pending.find? fun x => fits x.1,
    { b with pending := b.pending.eraseP fun x => fits x.1 })

/-- All the items put aside. -/
def unload (b : Inbox α ε) : List (α × ℕ) × Inbox α ε := (b.pending, { b with pending := [] })

def putAside (x : α × ℕ) (b : Inbox α ε) : Inbox α ε := { b with pending := b.pending ++ [x] }

variable {b b' b'' : Inbox α ε}

/-! ### Waits that come to something -/

/-- After these items and one more were taken, and the first of them put aside. -/
def passed (b : Inbox α ε) (l : List α) (rest : List (Arrival α ε)) : Inbox α ε :=
  ⟨rest, b.taken + l.length + 1, b.pending ++ l.zipIdx b.taken⟩

/-- After these items and one more were taken, and none put aside. -/
def dropped (b : Inbox α ε) (l : List α) (rest : List (Arrival α ε)) : Inbox α ε :=
  ⟨rest, b.taken + l.length + 1, b.pending⟩

/-- After these items were taken, and none put aside. -/
def emptied (b : Inbox α ε) (l : List α) (rest : List (Arrival α ε)) : Inbox α ε :=
  ⟨rest, b.taken + l.length, b.pending⟩

/-- A wait that reads on, where it is known when it comes to an item. -/
lemma wait_eq_ok {patient : Bool} {fits : α → Bool} {x : α × ℕ}
    {comes : List (Arrival α ε) → List α → α → List (Arrival α ε) → Prop}
    (hscan : ∀ {arrivals : List (Arrival α ε)} {l a rest},
      scan patient fits arrivals = ⟨l, .ok a, rest⟩ ↔ comes arrivals l a rest)
    (next : Scanned α ε → Inbox α ε) :
    ((scan patient fits b.arrivals).result.map
        (fun a => (a, b.taken + (scan patient fits b.arrivals).skipped.length)),
      next (scan patient fits b.arrivals)) = (.ok x, b') ↔
      ∃ l a rest, comes b.arrivals l a rest ∧ x = (a, b.taken + l.length) ∧
        b' = next ⟨l, .ok a, rest⟩ := by
  rcases hs : scan patient fits b.arrivals with ⟨l, _ | a, rest⟩
  · simp only [Except.map, Prod.mk.injEq, reduceCtorEq, false_and, false_iff]
    rintro ⟨l', a, rest', h, -⟩
    simp [hscan.mpr h] at hs
  · simp only [Except.map, Prod.mk.injEq, Except.ok.injEq]
    constructor
    · rintro ⟨rfl, rfl⟩
      exact ⟨l, a, rest, hscan.mp hs, rfl, rfl⟩
    · rintro ⟨l', a', rest', h, rfl, rfl⟩
      obtain ⟨rfl, ha, rfl⟩ := Scanned.mk.inj (hs.symm.trans (hscan.mpr h))
      obtain rfl := Except.ok.inj ha
      exact ⟨rfl, rfl⟩

lemma advance_ok (b : Inbox α ε) (l : List α) (a : α) (rest : List (Arrival α ε)) :
    b.advance ⟨l, .ok a, rest⟩ = b.dropped l rest := by
  simp [advance, dropped, Scanned.items, Scanned.found, Nat.add_assoc]

theorem skip_eq_ok {fits : α → Bool} {x : α × ℕ} :
    b.skip fits = (.ok x, b') ↔
      ∃ l a rest, Brings fits b.arrivals l a rest ∧ x = (a, b.taken + l.length) ∧
        b' = b.dropped l rest := by
  rw [skip, wait_eq_ok scan_eq_ok_iff]
  simp only [advance_ok]

theorem seek_eq_ok {fits : α → Bool} {x : α × ℕ} :
    b.seek false fits = (.ok x, b') ↔
      ∃ l a rest, Brings fits b.arrivals l a rest ∧ x = (a, b.taken + l.length) ∧
        b' = b.passed l rest := by
  rw [seek, wait_eq_ok scan_eq_ok_iff fun s =>
    { b.advance s with pending := b.pending ++ s.skipped.zipIdx b.taken }]
  simp only [advance_ok]
  rfl

theorem seek_patient_eq_ok {fits : α → Bool} {x : α × ℕ} :
    b.seek true fits = (.ok x, b') ↔
      ∃ l a rest, Reaches fits b.arrivals l a rest ∧ x = (a, b.taken + l.length) ∧
        b' = b.passed l rest := by
  rw [seek, wait_eq_ok scan_patient_eq_ok_iff fun s =>
    { b.advance s with pending := b.pending ++ s.skipped.zipIdx b.taken }]
  simp only [advance_ok]
  rfl

theorem gather_eq_ok {out : List (α × ℕ)} :
    b.gather = (.ok out, b') ↔
      ∃ l rest, Lulls b.arrivals l rest ∧ out = l.zipIdx b.taken ∧ b' = b.emptied l rest := by
  rcases hs : scan false (fun _ => false) b.arrivals with ⟨l, r, rest⟩
  -- a lull, after which all is handed out
  have hend : ∀ e, (∀ x, e ≠ .failed x) → r = .error e →
      (b.gather = (.ok out, b') ↔ ∃ l rest, Lulls b.arrivals l rest ∧ out = l.zipIdx b.taken ∧
        b' = b.emptied l rest) := by
    rintro e he rfl
    have hl := scan_never_iff.mp ⟨e, he, hs⟩
    have hg : b.gather = (.ok (l.zipIdx b.taken), b.emptied l rest) := by
      cases e with
      | failed x => exact absurd rfl (he x)
      | paused => simp [gather, hs, advance, emptied, Scanned.items, Scanned.found]
      | closed => simp [gather, hs, advance, emptied, Scanned.items, Scanned.found]
    rw [hg]
    constructor
    · intro h
      obtain ⟨ho, rfl⟩ := Prod.mk.inj h
      exact ⟨l, rest, hl, (Except.ok.inj ho).symm, rfl⟩
    · rintro ⟨l', rest', h, rfl, rfl⟩
      obtain ⟨e', -, h'⟩ := scan_never_iff.mpr h
      obtain ⟨rfl, -, rfl⟩ := Scanned.mk.inj (hs.symm.trans h')
      rfl
  cases r with
  | ok a =>
    -- nothing ends the scan with a result
    have ha : (scan false (fun _ => false) b.arrivals).result = .ok a := by rw [hs]
    exact absurd (fits_of_scan ha) Bool.false_ne_true
  | error e =>
    cases e with
    | paused => exact hend _ (by simp) rfl
    | closed => exact hend _ (by simp) rfl
    | failed x =>
      simp only [gather, hs, Prod.mk.injEq, reduceCtorEq, false_and, false_iff]
      rintro ⟨l', rest', h, -⟩
      obtain ⟨e', he, h'⟩ := scan_never_iff.mpr h
      obtain ⟨-, hx, -⟩ := Scanned.mk.inj (hs.symm.trans h')
      exact he x (Except.error.inj hx).symm

/-- From one inbox to another these items were taken from the connection. -/
structure Took (b b' : Inbox α ε) (got : List (α × ℕ)) : Prop where
  suffix : b'.arrivals <:+ b.arrivals
  wire : b.wire = got ++ b'.wire
  taken : b'.taken = b.taken + got.length

namespace Took

lemma refl (b : Inbox α ε) : Took b b [] := ⟨List.suffix_rfl, rfl, rfl⟩

lemma trans {got got' : List (α × ℕ)} (h : Took b b' got) (h' : Took b' b'' got') :
    Took b b'' (got ++ got') := by
  refine ⟨h'.suffix.trans h.suffix, ?_, ?_⟩
  · rw [h.wire, h'.wire, List.append_assoc]
  · rw [h'.taken, h.taken, List.length_append, Nat.add_assoc]

/-- What was put aside does not count. -/
lemma congr {got : List (α × ℕ)} (h : Took b b' got) {p p' : List (α × ℕ)} :
    Took { b with pending := p } { b' with pending := p' } got :=
  ⟨h.suffix, h.wire, h.taken⟩

end Took

lemma took_dropped {fits : α → Bool} {l : List α} {a : α} {rest : List (Arrival α ε)}
    (h : Brings fits b.arrivals l a rest) :
    Took b (b.dropped l rest) ((l ++ [a]).zipIdx b.taken) where
  suffix := by
    rw [h.arrivals]
    exact (List.suffix_cons _ rest).trans (List.suffix_append _ _)
  wire := by
    rw [Inbox.wire, h.arrivals, items_append, items_map_item, items_item, ← List.singleton_append,
      ← List.append_assoc, List.zipIdx_append]
    simp [Inbox.wire, dropped, Nat.add_assoc]
  taken := by simp [dropped, Nat.add_assoc]

lemma took_advance (patient : Bool) (fits : α → Bool) (b : Inbox α ε) :
    Took b (b.advance (scan patient fits b.arrivals))
      ((scan patient fits b.arrivals).items.zipIdx b.taken) where
  suffix := scan_rest_suffix ..
  wire := by
    rw [Inbox.wire, items_scan patient fits, List.zipIdx_append]
    rfl
  taken := by simp [advance]

lemma took_passed {fits : α → Bool} {l : List α} {a : α} {rest : List (Arrival α ε)}
    (h : Reaches fits b.arrivals l a rest) :
    Took b (b.passed l rest) ((l ++ [a]).zipIdx b.taken) := by
  have ht := took_advance true fits b
  rw [scan_patient_eq_ok_iff.mpr h, advance_ok] at ht
  exact ht.congr

/-! ### Nothing is lost -/

/-- From one inbox to another these items were handed out: with those still put aside they are
what had been put aside and what was taken since, and the order of arrival is kept. -/
def Accounts (b b' : Inbox α ε) (out : List (α × ℕ)) : Prop :=
  ∃ got, Took b b' got ∧ (out ++ b'.pending) ~ (b.pending ++ got) ∧
    b'.pending.Sublist (b.pending ++ got)

namespace Accounts

lemma refl (b : Inbox α ε) : Accounts b b [] := ⟨[], .refl b, by simp⟩

/-- **Accounts add up.** -/
theorem trans {out out' : List (α × ℕ)} (h : Accounts b b' out) (h' : Accounts b' b'' out') :
    Accounts b b'' (out ++ out') := by
  obtain ⟨got, ht, hp, hs⟩ := h
  obtain ⟨got', ht', hp', hs'⟩ := h'
  refine ⟨got ++ got', ht.trans ht', ?_, ?_⟩
  · calc (out ++ out') ++ b''.pending
        = out ++ (out' ++ b''.pending) := List.append_assoc ..
      _ ~ out ++ (b'.pending ++ got') := hp'.append_left out
      _ = (out ++ b'.pending) ++ got' := (List.append_assoc ..).symm
      _ ~ (b.pending ++ got) ++ got' := hp.append_right got'
      _ = b.pending ++ (got ++ got') := List.append_assoc ..
  · rw [← List.append_assoc]
    exact hs'.trans (hs.append_right got')

end Accounts

lemma find?_eraseP_perm (fits : α → Bool) (l : List α) :
    (l.find? fits).toList ++ l.eraseP fits ~ l := by
  induction l with
  | nil => simp
  | cons a l ih =>
    by_cases h : fits a
    · simp [h]
    · rw [List.find?_cons_of_neg h, List.eraseP_cons_of_neg h]
      exact List.perm_middle.trans (ih.cons a)

section Moves

variable (b : Inbox α ε) (patient : Bool) (fits : α → Bool)

theorem accounts_seek :
    Accounts b (b.seek patient fits).2 (b.seek patient fits).1.toOption.toList := by
  refine ⟨_, (took_advance patient fits b).congr, ?_⟩
  simp only [seek, Scanned.items, Scanned.found, List.zipIdx_append]
  cases (scan patient fits b.arrivals).result with
  | ok a =>
    refine ⟨?_, (List.sublist_append_left _ _).append_left _⟩
    simp only [Except.map, Except.toOption, Option.toList_some, List.zipIdx_singleton]
    rw [← List.append_assoc b.pending]
    exact List.perm_append_comm
  | error e => simp [Except.map, Except.toOption]

/-- What was put aside on the way is accounted for. -/
lemma accounts_passed {fits : α → Bool} {l : List α} {a : α} {rest : List (Arrival α ε)}
    (h : Reaches fits b.arrivals l a rest) :
    Accounts b (b.passed l rest) [(a, b.taken + l.length)] := by
  have hseek := (seek_patient_eq_ok (b := b)).mpr ⟨l, a, rest, h, rfl, rfl⟩
  have ha := accounts_seek b true fits
  rw [hseek] at ha
  exact ha

/-- What is gathered is what was taken. -/
theorem took_gather {out : List (α × ℕ)} (h : b.gather.1 = .ok out) : Took b b.gather.2 out := by
  have hno : ∀ a, (scan false (fun _ => false) b.arrivals).result ≠ .ok a :=
    fun a ha => Bool.false_ne_true (fits_of_scan ha)
  have ht := took_advance false (fun _ => false) b
  simp only [gather, Scanned.items, Scanned.found] at h ht ⊢
  split at h
  · simp at h
  · obtain rfl := Except.ok.inj h
    split at ht
    case h_1 ha => exact absurd ha (hno _)
    case h_2 => simpa using ht

/-- What comes in before a lull is taken by whoever waits for the lull. -/
lemma took_lulls {l : List α} {rest : List (Arrival α ε)} (h : Lulls b.arrivals l rest) :
    Took b (b.emptied l rest) (l.zipIdx b.taken) := by
  have hg := gather_eq_ok.mpr ⟨l, rest, h, rfl, rfl⟩
  have hout : b.gather.1 = .ok (l.zipIdx b.taken) := by rw [hg]
  have ht := took_gather b hout
  rwa [hg] at ht

theorem accounts_gather {out : List (α × ℕ)} (h : b.gather.1 = .ok out) :
    Accounts b b.gather.2 out :=
  ⟨out, took_gather b h, List.perm_append_comm, List.sublist_append_left _ _⟩

theorem accounts_pick : Accounts b (b.pick fits).2 (b.pick fits).1.toList := by
  refine ⟨[], (Took.refl b).congr, ?_, ?_⟩
  · rw [List.append_nil]
    exact find?_eraseP_perm _ _
  · rw [List.append_nil]
    exact List.eraseP_sublist

theorem accounts_unload : Accounts b b.unload.2 b.unload.1 :=
  ⟨[], (Took.refl b).congr, by simp [unload], by simp [unload]⟩

end Moves

end Inbox

end DappyCore.Lib
