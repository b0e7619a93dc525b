import DappyCore.Listings

/-!
How a front end finds the session it attaches to: the port of the one session of its scope that a
listing of the directory finds, while sessions come and go.
-/

namespace DappyCore.SharedStore

open Lib Lib.Trace Lib.Keyed Instances Import SessionStore

/-! ### The port -/

/-- A record counts where no scope is asked for, or its own scope is. -/
def inScope (scope : Option String) (record : SessionRecord) : Bool :=
  scope.isNone || decide (record.scope = scope)

def ambiguous (active : List SessionRecord) : String :=
  let ids := ", ".intercalate (active.map fun r => r.instanceId ++ ":" ++ toString r.controlPort)
  "ambiguous: " ++ toString active.length ++ " active sessions (" ++ ids ++
    "); pass --control-port or --scope"

/-- Resolve a unique active session control port from the session store. `listed` is what
`list_active` returns, which is called only where no port is given. -/
def resolveControlPort (listed : Except InstanceError (List SessionRecord))
    (controlPort : Option UInt16) (scope : Option String) : Except String UInt16 :=
  match controlPort with
  | some port => .ok port
  | none =>
    match listed with
    | .error _ => .error "list active sessions"
    | .ok records =>
      match records.filter (inScope scope) with
      | [] => .error "no active debug session found"
      | [record] => .ok record.controlPort
      | active => .error (ambiguous active)

/-! ### What a listing meets -/

/-- At some moment of the run the file of the record held it, and its session passed for alive. -/
def Met (sys : System) (w : Shared) (during : List Input) (r : SessionRecord) : Prop :=
  ∃ pre, pre <+: during ∧
    ((pre.foldl (step sys) w).dir.lookup (recordPath r.instanceId)).bind
      ((pre.foldl (step sys) w).store sys .listed id).live = some r

/-- The session is of the scope, and it is in place from the beginning of the listing to its end. -/
structure Lasting (owner : String → Process) (good : SessionRecord → Prop) (scope : Option String)
    (w : Shared) (names : List String) (during : List Input) (id : String) : Prop where
  listed : recordPath id ∈ names
  place : InPlace owner w id
  spared : ∀ i ∈ during, Spares owner id i
  inside : ∀ r, good r → r.instanceId = id → inScope scope r

section Listed

variable {sys : System} {owner : String → Process} {good : SessionRecord → Prop} {w : Shared}
  {q : Process} {names : List String} {during : List Input} {records : List SessionRecord}
  {scope : Option String}

/-- Each record that a listing returns was met in it. -/
lemma Kept.met (ho : Owned sys owner good) (h : Kept sys owner good w q names during)
    (hfree : w.free q = true) (hlist : ∀ names', .list q names' ∉ during)
    (hmore : results q (during.foldl (step sys) (step sys w (.list q names))) =
      results q w ++ [records]) : ∀ r ∈ records, Met sys (step sys w (.list q names)) during r := by
  have hmoments : Along (step sys) (fun u _ => (Safe sys owner good u ∧ Tidy good u) ∧
      ∃ pre, pre <+: during ∧ u = pre.foldl (step sys) (step sys w (.list q names)))
      (step sys w (.list q names)) during :=
    along_iff.mpr fun pre i post he =>
      ⟨along_iff.mp h.along pre i post he, pre, ⟨i :: post, he.symm⟩, rfl⟩
  have hall := (listing_begin hfree (P := fun _ found => ∀ r ∈ found,
    Met sys (step sys w (.list q names)) during r) (by simp)).run (fun u hu _ _ found hf => by
      obtain ⟨⟨hsafe, htidy⟩, pre, hpre, rfl⟩ := hu
      intro r hr
      rcases List.mem_append.mp hr with hr | hr
      · exact hf r hr
      · obtain ⟨hg, hpath, -⟩ := of_mem_seen ho hsafe htidy hr
        rw [← hpath, seen, if_pos (extension_recordPath (ho.named r hg)), Option.mem_toList] at hr
        exact ⟨pre, hpre, hr⟩) hmoments hlist
  obtain ⟨found, hfound, rfl⟩ := hall.found hmore
  exact fun r hr => hfound r ((sortBy_perm _).mem_iff.mp hr)

/-- What of a listing counts in a scope. -/
structure Active (sys : System) (owner : String → Process) (good : SessionRecord → Prop)
    (scope : Option String) (w : Shared) (q : Process) (names : List String)
    (during : List Input) (active : List SessionRecord) : Prop where
  ordered : active.Pairwise (fun a b => a.instanceId < b.instanceId)
  saved : ∀ r ∈ active, good r
  inside : ∀ r ∈ active, inScope scope r
  met : ∀ r ∈ active, Met sys (step sys w (.list q names)) during r
  lasting : ∀ id, Lasting owner good scope w names during id → ∃ r ∈ active, r.instanceId = id

lemma Kept.active (ho : Owned sys owner good) (h : Kept sys owner good w q names during)
    (hfree : w.free q = true) (hnodup : names.Nodup) (hlist : ∀ names', .list q names' ∉ during)
    (hmore : results q (during.foldl (step sys) (step sys w (.list q names))) =
      results q w ++ [records]) (scope : Option String) :
    Active sys owner good scope w q names during (records.filter (inScope scope)) := by
  obtain ⟨found, hfound, hsorted⟩ := (h.once ho hfree hnodup hlist).found hmore
  have hgood : ∀ r ∈ records, good r := fun r hr =>
    hfound.good r ((sortBy_perm _).mem_iff.mp (hsorted ▸ hr))
  have hordered : records.Pairwise (fun a b => a.instanceId < b.instanceId) :=
    hsorted ▸ Store.pairwise_lt_of_nodup hfound.ids
  refine ⟨hordered.filter _, fun r hr => hgood r (List.mem_of_mem_filter hr),
    fun r hr => List.of_mem_filter hr,
    fun r hr => h.met ho hfree hlist hmore r (List.mem_of_mem_filter hr), fun id hid => ?_⟩
  obtain ⟨r, hr, he⟩ := h.finds ho hfree hlist hid.listed hid.place hid.spared hmore
  exact ⟨r, List.mem_filter.mpr ⟨hr, hid.inside r (hgood r hr) he⟩, he⟩

end Listed

/-- **The port of a session.** However other processes save, delete and end during the listing, a
port that comes of it is of a session of the scope that was met alive in it, and no other session
of the scope was in place throughout; a session in place throughout is found where none but its
own is ever of the scope; and an answer without a port either tells of several sessions met alive,
every one of those in place throughout among them, or there is none of these. -/
theorem port_found {sys : System} {owner : String → Process} {good : SessionRecord → Prop}
    (ho : Owned sys owner good) {dir : Dir}
    (hdir : ∀ name, extension name = some "json" → dir.lookup name = none)
    {before during : List Input} {q : Process} {names : List String}
    (hi : Along (step sys) (Fits owner good) (.new dir) (before ++ .list q names :: during))
    (hfree : (before.foldl (step sys) (.new dir)).free q = true) (hnodup : names.Nodup)
    (hlist : ∀ names', .list q names' ∉ during) {records : List SessionRecord}
    (hmore : results q (during.foldl (step sys)
        (step sys (before.foldl (step sys) (.new dir)) (.list q names))) =
      results q (before.foldl (step sys) (.new dir)) ++ [records]) (scope : Option String) :
    let w := before.foldl (step sys) (.new dir)
    let met := fun r => good r ∧ inScope scope r ∧ Met sys (step sys w (.list q names)) during r
    let lasting := Lasting owner good scope w names during
    let resolved := resolveControlPort (.ok records) none scope
    (∀ port, resolved = .ok port →
      ∃ r, met r ∧ r.controlPort = port ∧ ∀ id, lasting id → id = r.instanceId) ∧
    (∀ id, lasting id → (∀ r, good r → inScope scope r → r.instanceId = id) →
      ∃ r, met r ∧ r.instanceId = id ∧ resolved = .ok r.controlPort) ∧
    ∀ e, resolved = .error e →
      (e = "no active debug session found" ∧ ∀ id, ¬ lasting id) ∨
      ∃ active, 2 ≤ active.length ∧ e = ambiguous active ∧ (∀ r ∈ active, met r) ∧
        active.Pairwise (fun a b => a.instanceId < b.instanceId) ∧
        ∀ id, lasting id → ∃ r ∈ active, r.instanceId = id := by
  intro w met lasting resolved
  have hactive := (kept_listing ho hdir hi).active ho hfree hnodup hlist hmore scope
  have hmet : ∀ r ∈ records.filter (inScope scope), met r := fun r hr =>
    ⟨hactive.saved r hr, hactive.inside r hr, hactive.met r hr⟩
  have hresolved : resolved = match records.filter (inScope scope) with
      | [] => .error "no active debug session found"
      | [record] => .ok record.controlPort
      | active => .error (ambiguous active) := rfl
  generalize records.filter (inScope scope) = active at hactive hmet hresolved
  cases active with
  | nil =>
    have hnone : ∀ id, ¬ lasting id := fun id hid => by
      obtain ⟨r, hr, -⟩ := hactive.lasting id hid
      simp at hr
    refine ⟨fun port hp => ?_, fun id hid => absurd hid (hnone id), fun e he => ?_⟩
    · rw [hresolved] at hp
      cases hp
    · exact .inl ⟨(Except.error.inj (hresolved.symm.trans he)).symm, hnone⟩
  | cons r rest =>
    have hr : met r := hmet r List.mem_cons_self
    cases rest with
    | nil =>
      have hone : ∀ id, lasting id → id = r.instanceId := fun id hid => by
        obtain ⟨r', hr', he⟩ := hactive.lasting id hid
        rw [← he, List.mem_singleton.mp hr']
      refine ⟨fun port hp => ?_, fun id hid _ => ⟨r, hr, (hone id hid).symm, hresolved⟩,
        fun e he => ?_⟩
      · exact ⟨r, hr, Except.ok.inj (hresolved.symm.trans hp), hone⟩
      · rw [hresolved] at he
        cases he
    | cons r' rest =>
      have hr' : met r' := hmet r' (List.mem_cons_of_mem _ List.mem_cons_self)
      have hlt : r.instanceId < r'.instanceId :=
        List.rel_of_pairwise_cons hactive.ordered List.mem_cons_self
      refine ⟨fun port hp => ?_, fun id hid honly => ?_, fun e he => .inr ⟨r :: r' :: rest, ?_,
        (Except.error.inj (hresolved.symm.trans he)).symm, hmet, hactive.ordered,
        hactive.lasting⟩⟩
      · rw [hresolved] at hp
        cases hp
      · -- two sessions are met, so the scope has records of more than one
        rw [honly r hr.1 hr.2.1, honly r' hr'.1 hr'.2.1] at hlt
        exact absurd hlt (String.lt_irrefl _)
      · rw [List.length_cons, List.length_cons]
        omega

/-- One session is in place while a front end looks for it, and another that looks too is killed. -/
theorem port_found_attached : ∃ records,
    results 0 (turns.foldl (step attachedSystem) (step attachedSystem
        (attachedInputs.foldl (step attachedSystem) (.new ∅)) (.list 0 ["a.json"]))) =
      results 0 (attachedInputs.foldl (step attachedSystem) (.new ∅)) ++ [records] ∧
    resolveControlPort (.ok records) none none = .ok 5678 := by
  have hlist : ∀ names', .list 0 names' ∉ turns := by simp [turns]
  have hkept := kept_listing owned_attached (by simp) fits_turns
  obtain ⟨records, hmore⟩ := hkept.returns owned_attached free_attached (List.nodup_singleton _)
    hlist running_turns (by decide)
  obtain ⟨-, hfound, -⟩ := port_found owned_attached (by simp) fits_turns free_attached
    (List.nodup_singleton _) hlist hmore none
  obtain ⟨r, ⟨hr, -⟩, -, hport⟩ := hfound "a"
    ⟨List.mem_singleton.mpr rfl, inPlace_attached, spares_turns, fun _ _ _ => rfl⟩
    (fun r hr _ => congrArg SessionRecord.instanceId hr)
  obtain rfl : r = attached := hr
  exact ⟨records, hmore, hport⟩

end DappyCore.SharedStore
