import DappyCore.SharedStore

/-!
What a listing finds while other processes save, delete and list: each session that is in place
from its beginning to its end, no session twice, and nothing that no owner saved. It ends after so
many turns of its own, whatever the others do.
-/

namespace DappyCore.SharedStore

open Lib Lib.Trace Lib.Keyed Instances Import SessionStore

/-- The session is in place, and its process runs. -/
def InPlace (owner : String → Process) (w : Shared) (id : String) : Prop :=
  (w.saved id).isSome ∧ owner id ∈ w.running

/-- No input by which the session goes. -/
def Spares (owner : String → Process) (id : String) : Input → Prop
  | .delete _ id' => id' ≠ id
  | .exit p => p ≠ owner id
  | _ => True

/-- Only sessions that are ever saved have a file that ends in `.json`. -/
def Tidy (good : SessionRecord → Prop) (w : Shared) : Prop :=
  ∀ name, extension name = some "json" → (w.dir.lookup name).isSome →
    ∃ r, good r ∧ name = recordPath r.instanceId

/-- What the listings of a process have returned. -/
def results (q : Process) (w : Shared) : List (List SessionRecord) :=
  w.returned.filterMap fun x => if x.1 = q then some x.2 else none

/-- A turn of the process. -/
def Input.isTurn (q : Process) : Input → Bool
  | .advance p _ => p = q
  | _ => false

/-- The process is in a listing. -/
def Call.isListing : Call → Bool
  | .listing _ _ | .dropping _ _ _ => true
  | .idle | .saving _ _ | .deleting _ => false

/-- What reading the file of this name adds to a listing. -/
def seen (sys : System) (w : Shared) (name : String) : List SessionRecord :=
  if extension name = some "json" then
    ((w.dir.lookup name).bind (w.store sys .listed id).live).toList
  else []

/-- Where the listing is that the process began with these results so far, after so many turns:
what is said of the names to come and the records found, and the turns it has left. -/
inductive Listing (q : Process) (base : List (List SessionRecord))
    (P : List String → List SessionRecord → Prop) (total turns : ℕ) (w : Shared) : Prop
  | reading {names : List String} {records : List SessionRecord}
      (call : w.calls q = .listing names records) (runs : q ∈ w.running) (found : P names records)
      (left : 2 * names.length + 1 + turns ≤ total) (same : results q w = base)
  | dropping {name : String} {names : List String} {records : List SessionRecord}
      (call : w.calls q = .dropping name names records) (runs : q ∈ w.running)
      (found : P names records) (left : 2 * names.length + 2 + turns ≤ total)
      (same : results q w = base)
  | past {records : List SessionRecord} (call : (w.calls q).isListing = false)
      (found : P [] records) (more : results q w = base ++ [sortById records])
  | gone (call : (w.calls q).isListing = false) (ended : w.ended q = true)
      (same : results q w = base)

section Steps

variable {sys : System} {w : Shared} {p q : Process} {name : String} {names : List String}
  {records : List SessionRecord}

/-- Reading a file adds what is seen there. -/
lemma advanceList_seen (sys : System) (w : Shared) (q : Process) (name : String)
    (names : List String) (records : List SessionRecord) :
    advanceList sys w q (name :: names) records =
        w.setCall q (.listing names (records ++ seen sys w name)) ∨
      advanceList sys w q (name :: names) records =
        w.setCall q (.dropping name names (records ++ seen sys w name)) := by
  unfold seen
  by_cases hext : extension name = some "json"
  · rw [if_pos hext]
    cases hbody : w.dir.lookup name with
    | none => exact .inl (by simp [advanceList, hext, readToString, hbody])
    | some body =>
      rw [advanceList_cons hext hbody .listed id, Option.bind_some]
      by_cases hkeeps : (w.store sys .listed id).keeps body = true
      · exact .inl (if_pos hkeeps)
      · have hlive : (w.store sys .listed id).live body = none := by
          rw [Option.eq_none_iff_forall_ne_some]
          intro r hr
          exact hkeeps (Store.keeps_of_live hr)
        rw [if_neg hkeeps, hlive, Option.toList_none, List.append_nil]
        exact .inr rfl
  · rw [if_neg hext, List.append_nil]
    exact .inl (by simp [advanceList, hext])

lemma results_append (h : p ≠ q) (w : Shared) (found : List SessionRecord) (call : Call) :
    results q ({ w with returned := w.returned ++ [(p, found)] }.setCall p call) =
      results q w := by
  simp [results, Shared.setCall, h]

/-- A listing returns to its own process only. -/
lemma results_advanceList (h : p ≠ q) (names : List String) (records : List SessionRecord) :
    results q (advanceList sys w p names records) = results q w := by
  cases names with
  | nil => exact results_append h w _ _
  | cons name names =>
    rcases advanceList_seen sys w p name names records with he | he <;> rw [he] <;> rfl

lemma calls_advanceList (h : p ≠ q) (names : List String) (records : List SessionRecord) :
    (advanceList sys w p names records).calls q = w.calls q := by
  cases names with
  | nil => simp [advanceList, h.symm]
  | cons name names =>
    rcases advanceList_seen sys w p name names records with he | he <;>
      rw [he, setCall_calls, if_neg h.symm]

lemma advance_other (h : p ≠ q) (bytes : ℕ) :
    (advance sys w p bytes).calls q = w.calls q ∧
      results q (advance sys w p bytes) = results q w := by
  unfold advance
  split
  · exact ⟨rfl, rfl⟩
  · unfold advanceSave
    dsimp only
    split
    · split <;> exact ⟨by rw [setCall_calls, if_neg h.symm], rfl⟩
    · exact ⟨by rw [setCall_calls, if_neg h.symm], rfl⟩
  · exact ⟨by rw [setCall_calls, if_neg h.symm], rfl⟩
  · exact ⟨calls_advanceList h _ _, results_advanceList h _ _⟩
  · exact ⟨by rw [setCall_calls, if_neg h.symm], rfl⟩

/-- A turn outside a listing. -/
lemma advance_unlisted (h : (w.calls q).isListing = false) (bytes : ℕ) :
    ((advance sys w q bytes).calls q).isListing = false ∧
      results q (advance sys w q bytes) = results q w := by
  unfold advance
  split
  · next hc => exact ⟨by rw [hc]; rfl, rfl⟩
  · unfold advanceSave
    dsimp only
    split
    · split <;> exact ⟨by rw [setCall_calls, if_pos rfl]; rfl, rfl⟩
    · exact ⟨by rw [setCall_calls, if_pos rfl]; rfl, rfl⟩
  · exact ⟨by rw [setCall_calls, if_pos rfl]; rfl, rfl⟩
  · next hc => simp [hc, Call.isListing] at h
  · next hc => simp [hc, Call.isListing] at h

/-- A listing of the process is where it was, and none has begun. -/
structure Untouched (q : Process) (w u : Shared) : Prop where
  keeps : (w.calls q).isListing = true → u.calls q = w.calls q
  begins : (w.calls q).isListing = false → (u.calls q).isListing = false
  same : results q u = results q w

lemma Untouched.of_calls {u : Shared} (hcalls : u.calls q = w.calls q)
    (hres : results q u = results q w) : Untouched q w u :=
  ⟨fun _ => hcalls, fun h => hcalls ▸ h, hres⟩

lemma Untouched.setCall {u : Shared} {call : Call} (hcalls : u.calls q = w.calls q)
    (hres : results q u = results q w) (hp : p = q → (w.calls q).isListing = false)
    (hcall : call.isListing = false) : Untouched q w (u.setCall p call) := by
  by_cases hpq : q = p
  · refine ⟨fun h => ?_, fun _ => ?_, hres⟩
    · rw [hp hpq.symm] at h
      cases h
    · rw [setCall_calls, if_pos hpq, hcall]
  · exact .of_calls (by rw [setCall_calls, if_neg hpq, hcalls]) hres

lemma isListing_of_free (h : w.free q = true) : (w.calls q).isListing = false := by
  cases hc : w.calls q <;> simp_all [Call.isListing, Shared.free, Call.isIdle]

/-- What no turn of the process, no end of it and no new listing does to it. -/
lemma step_other {i : Input} (hturn : i.isTurn q = false) (hexit : i ≠ .exit q)
    (hlist : ∀ names, i ≠ .list q names) : Untouched q w (step sys w i) := by
  cases i with
  | start p => simp only [step]; split_ifs <;> exact .of_calls rfl rfl
  | exit p =>
    have hne : q ≠ p := fun he => hexit (he ▸ rfl)
    exact .of_calls (Function.update_of_ne hne _ _) rfl
  | bind p port => simp only [step]; split_ifs <;> exact .of_calls rfl rfl
  | save p r =>
    simp only [step]
    split_ifs with hfree
    · exact .setCall rfl rfl (fun he => isListing_of_free (he ▸ hfree)) rfl
    · exact .of_calls rfl rfl
  | delete p id =>
    simp only [step]
    split_ifs with hsees
    · have hfree := (Bool.and_eq_true_iff.mp hsees).1
      exact .setCall rfl rfl (fun he => isListing_of_free (he ▸ hfree)) rfl
    · exact .of_calls rfl rfl
  | list p names =>
    have hne : q ≠ p := fun he => hlist names (he ▸ rfl)
    simp only [step]
    split_ifs
    · exact .of_calls (by rw [setCall_calls, if_neg hne]) rfl
    · exact .of_calls rfl rfl
  | advance p bytes =>
    have hne : p ≠ q := by simpa [Input.isTurn] using hturn
    simp only [step]
    split_ifs
    · obtain ⟨hcalls, hres⟩ := @advance_other sys w p q hne bytes
      exact .of_calls hcalls hres
    · exact .of_calls rfl rfl
  | fail p =>
    simp only [step]
    split
    · next r left _ hc => exact .setCall rfl rfl (fun he => by rw [← he, hc]; rfl) rfl
    · exact .of_calls rfl rfl

/-- Only its end takes a process away. -/
lemma running_step {i : Input} (hexit : i ≠ .exit q) (h : q ∈ w.running) :
    q ∈ (step sys w i).running := by
  cases i with
  | start p => simp only [step]; split_ifs <;> simp [h]
  | exit p =>
    have hne : q ≠ p := fun he => hexit (he ▸ rfl)
    simp [step, h, hne]
  | bind p port => simp only [step]; split_ifs <;> exact h
  | save p r => simp only [step]; split_ifs <;> exact h
  | delete p id => simp only [step]; split_ifs <;> exact h
  | list p names => simp only [step]; split_ifs <;> exact h
  | advance p bytes =>
    simp only [step]
    split_ifs
    · rw [(advance_frame sys w p bytes).1]
      exact h
    · exact h
  | fail p => simp only [step]; split <;> exact h

lemma ended_step (i : Input) (h : w.ended q = true) : (step sys w i).ended q = true := by
  cases i with
  | exit p =>
    simp only [step, Function.update_apply]
    split_ifs
    · rfl
    · exact h
  | start p => simp only [step]; split_ifs <;> exact h
  | bind p port => simp only [step]; split_ifs <;> exact h
  | save p r => simp only [step]; split_ifs <;> exact h
  | delete p id => simp only [step]; split_ifs <;> exact h
  | list p names => simp only [step]; split_ifs <;> exact h
  | advance p bytes =>
    simp only [step]
    split_ifs
    · rw [(advance_frame sys w p bytes).2.1]
      exact h
    · exact h
  | fail p => simp only [step]; split <;> exact h

end Steps

/-! ### One listing -/

section Runs

variable {sys : System} {owner : String → Process} {good : SessionRecord → Prop} {w : Shared}
  {q : Process} {base : List (List SessionRecord)}
  {P : List String → List SessionRecord → Prop} {total turns : ℕ}

/-- **One turn** of the listing reads a file, drops it, or returns. -/
lemma Listing.turn (h : Listing q base P total turns w)
    (hread : ∀ name names records, P (name :: names) records →
      P names (records ++ seen sys w name)) (bytes : ℕ) :
    Listing q base P total (turns + 1) (step sys w (.advance q bytes)) := by
  by_cases hruns : q ∈ w.running
  · rw [step_advance hruns]
    cases h with
    | @reading names records hcall _ hfound hleft hsame =>
      cases names with
      | nil =>
        -- all names are read: the listing returns
        have hstep : advance sys w q bytes =
            { w with returned := w.returned ++ [(q, sortById records)] }.setCall q .idle := by
          simp only [advance, hcall, advanceList]
        rw [hstep]
        refine .past (by rw [setCall_calls, if_pos rfl]; rfl) hfound ?_
        rw [← hsame]
        simp [results, Shared.setCall]
      | cons name names =>
        have hmore := hread name names records hfound
        rw [List.length_cons] at hleft
        have hstep : advance sys w q bytes = advanceList sys w q (name :: names) records := by
          simp only [advance, hcall]
        rw [hstep]
        rcases advanceList_seen sys w q name names records with he | he
        · rw [he]
          exact .reading (by rw [setCall_calls, if_pos rfl]) hruns hmore (by omega) hsame
        · rw [he]
          exact .dropping (by rw [setCall_calls, if_pos rfl]) hruns hmore (by omega) hsame
    | @dropping name names records hcall _ hfound hleft hsame =>
      have hstep : advance sys w q bytes =
          { w with dir := w.dir.erase name }.setCall q (.listing names records) := by
        simp only [advance, hcall]
      rw [hstep]
      exact .reading (by rw [setCall_calls, if_pos rfl]) hruns hfound (by omega) hsame
    | past hcall hfound hmore =>
      obtain ⟨hcall', hres⟩ := @advance_unlisted sys w q hcall bytes
      exact .past hcall' hfound (hres.trans hmore)
    | gone hcall hended hsame =>
      obtain ⟨hcall', hres⟩ := @advance_unlisted sys w q hcall bytes
      refine .gone hcall' ?_ (hres.trans hsame)
      rw [(advance_frame sys w q bytes).2.1]
      exact hended
  · -- the process has been killed
    have hstep : step sys w (.advance q bytes) = w := by simp [step, hruns]
    rw [hstep]
    cases h with
    | reading _ hr => exact absurd hr hruns
    | dropping _ hr => exact absurd hr hruns
    | past hcall hfound hmore => exact .past hcall hfound hmore
    | gone hcall hended hsame => exact .gone hcall hended hsame

/-- **One step** of any process leaves the listing where it is, or is a turn of it. -/
lemma Listing.step (h : Listing q base P total turns w)
    (hread : ∀ name names records, P (name :: names) records →
      P names (records ++ seen sys w name)) {i : Input} (hlist : ∀ names, i ≠ .list q names) :
    Listing q base P total (turns + if i.isTurn q then 1 else 0) (step sys w i) := by
  by_cases hturn : i.isTurn q = true
  · -- the listing's own turn
    obtain ⟨bytes, rfl⟩ : ∃ bytes, i = .advance q bytes := by
      cases i <;> simp_all [Input.isTurn]
    rw [if_pos hturn]
    exact h.turn hread bytes
  · rw [if_neg hturn, Nat.add_zero]
    by_cases hexit : i = .exit q
    · -- the process that lists is killed
      subst hexit
      have hidle : ((SharedStore.step sys w (.exit q)).calls q).isListing = false := by
        simp [SharedStore.step, Call.isListing]
      have hended : (SharedStore.step sys w (.exit q)).ended q = true := by
        simp [SharedStore.step]
      cases h with
      | reading _ _ _ _ hsame => exact .gone hidle hended hsame
      | dropping _ _ _ _ hsame => exact .gone hidle hended hsame
      | past _ hfound hmore => exact .past hidle hfound hmore
      | gone _ _ hsame => exact .gone hidle hended hsame
    · -- anything else leaves the listing where it is
      obtain ⟨hkeep, hnew, hres⟩ :=
        @step_other sys w q i (by simpa using hturn) hexit hlist
      cases h with
      | reading hcall hruns hfound hleft hsame =>
        refine .reading ?_ (running_step hexit hruns) hfound hleft (hres.trans hsame)
        rw [hkeep (by rw [hcall]; rfl), hcall]
      | dropping hcall hruns hfound hleft hsame =>
        have hcall' := (hkeep (by rw [hcall]; rfl)).trans hcall
        exact .dropping hcall' (running_step hexit hruns) hfound hleft (hres.trans hsame)
      | past hcall hfound hmore => exact .past (hnew hcall) hfound (hres.trans hmore)
      | gone hcall hended hsame =>
        exact .gone (hnew hcall) (ended_step i hended) (hres.trans hsame)

/-- **A run** during the listing, in which what is read is told by an invariant. -/
lemma Listing.run {J : Shared → Prop} {during : List Input}
    (hread : ∀ u, J u → ∀ name names records, P (name :: names) records →
      P names (records ++ seen sys u name))
    (hJ : Along (SharedStore.step sys) (fun u _ => J u) w during)
    (hlist : ∀ names, .list q names ∉ during) (h : Listing q base P total turns w) :
    Listing q base P total (turns + during.countP (·.isTurn q))
      (during.foldl (SharedStore.step sys) w) := by
  induction during generalizing w turns with
  | nil => exact h
  | cons i during ih =>
    have hi : ∀ names, i ≠ .list q names := by
      rintro names rfl
      exact hlist names List.mem_cons_self
    have hstep := h.step (hread w hJ.1) hi
    have hrest := ih hJ.2 (fun names hmem => hlist names (List.mem_cons_of_mem _ hmem)) hstep
    rw [List.countP_cons, Nat.add_comm (during.countP _), ← Nat.add_assoc]
    exact hrest

/-- What a listing has found once it is over. -/
lemma Listing.found {records : List SessionRecord} (h : Listing q base P total turns w)
    (hmore : results q w = base ++ [records]) :
    ∃ found, P [] found ∧ records = sortById found := by
  cases h with
  | reading _ _ _ _ hsame => simp [hsame] at hmore
  | dropping _ _ _ _ hsame => simp [hsame] at hmore
  | past _ hfound hmore' =>
    have he := List.append_cancel_left (hmore.symm.trans hmore')
    exact ⟨_, hfound, List.head_eq_of_cons_eq he⟩
  | gone _ _ hsame => simp [hsame] at hmore

/-! ### What is read -/

/-- The session is still to be read, or its record is there. -/
def Coming (id : String) (names : List String) (records : List SessionRecord) : Prop :=
  recordPath id ∈ names ∨ ∃ r ∈ records, r.instanceId = id

/-- Each session found has been saved, and is found once. -/
structure Once (good : SessionRecord → Prop) (names : List String)
    (records : List SessionRecord) : Prop where
  nodup : names.Nodup
  good : ∀ r ∈ records, good r
  past : ∀ r ∈ records, recordPath r.instanceId ∉ names
  ids : (records.map (·.instanceId)).Nodup

/-- A session in place is seen. -/
lemma seen_of_inPlace (ho : Owned sys owner good) (h : Safe sys owner good w) {id : String}
    (hid : InPlace owner w id) : ∃ r ∈ seen sys w (recordPath id), r.instanceId = id := by
  obtain ⟨r, hr⟩ := Option.isSome_iff_exists.mp hid.1
  obtain ⟨hg, rfl, hsv, hlook⟩ := h.saved id r hr
  have hend : w.ended (owner r.instanceId) ≠ true := fun he => h.ended _ he hid.2
  have hlive := (keeps_of_good ho hg hsv hend .listed (fun name => name)).1
  refine ⟨r, ?_, rfl⟩
  rw [seen, if_pos (extension_recordPath (ho.named r hg)), hlook hid.2, Option.bind_some]
  exact Option.mem_toList.mpr hlive

lemma Coming.read (ho : Owned sys owner good) (h : Safe sys owner good w) {id name : String}
    (hid : InPlace owner w id) {names : List String} {records : List SessionRecord}
    (hc : Coming id (name :: names) records) : Coming id names (records ++ seen sys w name) := by
  rcases hc with hmem | ⟨r, hr, he⟩
  · rcases List.mem_cons.mp hmem with rfl | hmem
    · obtain ⟨r, hr, he⟩ := seen_of_inPlace ho h hid
      exact .inr ⟨r, List.mem_append_right _ hr, he⟩
    · exact .inl hmem
  · exact .inr ⟨r, List.mem_append_left _ hr, he⟩

/-- What is seen under a name is the record of it that its owner saved. -/
lemma of_mem_seen (ho : Owned sys owner good) (h : Safe sys owner good w) (ht : Tidy good w)
    {name : String} {r : SessionRecord} (hr : r ∈ seen sys w name) :
    good r ∧ recordPath r.instanceId = name ∧ seen sys w name = [r] := by
  have hseen : seen sys w name = [r] := by
    unfold seen at hr ⊢
    split_ifs at hr ⊢
    · rw [Option.mem_toList] at hr
      rw [hr]
      rfl
    · simp at hr
  unfold seen at hr
  split_ifs at hr with hext
  · obtain ⟨body, hbody, hlive⟩ := Option.bind_eq_some_iff.mp (Option.mem_toList.mp hr)
    obtain ⟨r₀, hg₀, rfl⟩ := ht name hext (by rw [hbody]; rfl)
    obtain ⟨r', hg, hid, -, rfl⟩ := h.whole r₀ body hg₀ hbody
    obtain ⟨text, htext, hparse⟩ := ho.reads r' hg
    have hreads : (w.store sys .listed id).reads (sys.serde.toVecPretty r') = some r' := by
      simp [Store.reads, Shared.store, htext, hparse, Except.toOption]
    obtain ⟨hsame, -⟩ := Option.filter_eq_some_iff.mp hlive
    obtain rfl : r' = r := Option.some.inj (hreads.symm.trans hsame)
    exact ⟨hg, by rw [hid], hseen⟩
  · simp at hr

lemma Once.read (ho : Owned sys owner good) (h : Safe sys owner good w) (ht : Tidy good w)
    {name : String} {names : List String} {records : List SessionRecord}
    (hf : Once good (name :: names) records) : Once good names (records ++ seen sys w name) := by
  obtain ⟨hname, hnodup⟩ := List.nodup_cons.mp hf.nodup
  have hrest : ∀ r ∈ records, recordPath r.instanceId ∉ names := fun r hr hmem =>
    hf.past r hr (List.mem_cons_of_mem _ hmem)
  cases hs : seen sys w name with
  | nil => rw [List.append_nil]; exact ⟨hnodup, hf.good, hrest, hf.ids⟩
  | cons r more =>
    have hmem : r ∈ seen sys w name := hs ▸ List.mem_cons_self
    obtain ⟨hg, hpath, hone⟩ := of_mem_seen ho h ht hmem
    obtain rfl : more = [] := (List.cons.inj (hs.symm.trans hone)).2
    refine ⟨hnodup, fun r' hr' => ?_, fun r' hr' => ?_, ?_⟩
    · rcases List.mem_append.mp hr' with hr' | hr'
      · exact hf.good r' hr'
      · exact (List.mem_singleton.mp hr') ▸ hg
    · rcases List.mem_append.mp hr' with hr' | hr'
      · exact hrest r' hr'
      · rw [List.mem_singleton.mp hr', hpath]
        exact hname
    · rw [List.map_append, List.map_singleton, List.nodup_append]
      refine ⟨hf.ids, List.nodup_singleton _, fun a ha b hb he => ?_⟩
      obtain ⟨r', hr', rfl⟩ := List.mem_map.mp ha
      refine hf.past r' hr' ?_
      rw [he, List.mem_singleton.mp hb, hpath]
      exact List.mem_cons_self

/-! ### What the others do -/

/-- No call takes a record away but the deletion that has been noted. -/
lemma isSome_saved_advance {id : String} (h : (w.saved id).isSome) (p : Process) (bytes : ℕ) :
    ((advance sys w p bytes).saved id).isSome := by
  unfold advance
  split
  · exact h
  · unfold advanceSave
    dsimp only
    split
    · split
      · exact h
      · simp only [Shared.setCall, Function.update_apply]
        split_ifs
        · rfl
        · exact h
    · exact h
  · exact h
  · obtain ⟨call, returned, he, -⟩ := advanceList_frame sys w p _ _
    rw [he]
    exact h
  · exact h

/-- A file that ends in `.json` is there as it was, or it is that of a session that is saved. -/
lemma Tidy.of_dir {w' : Shared} (h : Tidy good w)
    (hdir : ∀ name, extension name = some "json" → (w'.dir.lookup name).isSome →
      (w.dir.lookup name).isSome ∨ ∃ r, good r ∧ name = recordPath r.instanceId) :
    Tidy good w' := fun name hext hsome => (hdir name hext hsome).elim (h name hext) id

/-- The file that a save writes does not end in `.json`. -/
lemma ne_tmpPath {name id : String} (hext : extension name = some "json") (hid : id ≠ "") :
    name ≠ tmpPath id := by
  obtain ⟨id', -, rfl⟩ := exists_id_of_extension hext
  exact recordPath_ne_tmpPath id' hid

lemma Tidy.write (ho : Owned sys owner good) (h : Tidy good w) {r : SessionRecord} (hg : good r)
    (body : List UInt8) (p : Process) (call : Call) :
    Tidy good ({ w with dir := w.dir.insert (tmpPath r.instanceId) body }.setCall p call) := by
  refine h.of_dir fun name hext hsome => .inl ?_
  have hne := ne_tmpPath hext (ho.named r hg)
  rw [← AList.lookup_insert_ne hne]
  exact hsome

lemma Tidy.erase (h : Tidy good w) (name : String) (p : Process) (call : Call) :
    Tidy good ({ w with dir := w.dir.erase name }.setCall p call) := by
  refine h.of_dir fun name' hext hsome => .inl ?_
  have hsome' : ((w.dir.erase name).lookup name').isSome := hsome
  rw [HashMap.lookup_erase_of] at hsome'
  split_ifs at hsome' with hne
  · simp at hsome'
  · exact hsome'

lemma Tidy.advance (ho : Owned sys owner good) (hs : Safe sys owner good w) (h : Tidy good w)
    (p : Process) (bytes : ℕ) : Tidy good (advance sys w p bytes) := by
  unfold SharedStore.advance
  split
  · exact h
  · rename_i r left hc
    obtain ⟨hg, -⟩ := hs.saving p r left hc
    cases left with
    | nil =>
      simp only [advanceSave, rename]
      cases htmp : w.dir.lookup (tmpPath r.instanceId) with
      | none => exact h
      | some body =>
        refine h.of_dir fun name hext hsome => ?_
        have hsome' : ((((w.dir.erase (tmpPath r.instanceId)).insert (recordPath r.instanceId)
          body)).lookup name).isSome := hsome
        by_cases hname : name = recordPath r.instanceId
        · exact .inr ⟨r, hg, hname⟩
        · rw [AList.lookup_insert_ne hname,
            AList.lookup_erase_ne (ne_tmpPath hext (ho.named r hg))] at hsome'
          exact .inl hsome'
    | cons b left => exact h.write ho hg _ _ _
  · exact h.erase _ _ _
  · obtain ⟨call, returned, he, -⟩ := advanceList_frame sys w p _ _
    rw [he]
    exact h
  · exact h.erase _ _ _

lemma Tidy.step (ho : Owned sys owner good) (hs : Safe sys owner good w) (h : Tidy good w)
    {i : Input} (hf : Fits owner good w i) : Tidy good (SharedStore.step sys w i) := by
  cases i with
  | start p => simp only [SharedStore.step]; split_ifs <;> exact h
  | exit p => exact h
  | bind p port => simp only [SharedStore.step]; split_ifs <;> exact h
  | save p r =>
    simp only [SharedStore.step]
    split_ifs
    · exact h.write ho hf.1 _ _ _
    · exact h
  | delete p id' => simp only [SharedStore.step]; split_ifs <;> exact h
  | list p names => simp only [SharedStore.step]; split_ifs <;> exact h
  | advance p bytes =>
    simp only [SharedStore.step]
    split_ifs
    · exact h.advance ho hs p bytes
    · exact h
  | fail p => simp only [SharedStore.step]; split <;> exact h

lemma InPlace.step {id : String} (h : InPlace owner w id) {i : Input} (hi : Spares owner id i) :
    InPlace owner (SharedStore.step sys w i) id := by
  have hrun : owner id ∈ (SharedStore.step sys w i).running := by
    refine running_step ?_ h.2
    rintro rfl
    exact hi rfl
  refine ⟨?_, hrun⟩
  cases i with
  | start p => simp only [SharedStore.step]; split_ifs <;> exact h.1
  | exit p => exact h.1
  | bind p port => simp only [SharedStore.step]; split_ifs <;> exact h.1
  | save p r => simp only [SharedStore.step]; split_ifs <;> exact h.1
  | delete p id' =>
    simp only [SharedStore.step]
    split_ifs
    · have hne : id ≠ id' := fun he => hi he.symm
      exact (congrArg Option.isSome (Function.update_of_ne hne none w.saved)).trans h.1
    · exact h.1
  | list p names => simp only [SharedStore.step]; split_ifs <;> exact h.1
  | advance p bytes =>
    simp only [SharedStore.step]
    split_ifs
    · exact isSome_saved_advance h.1 p bytes
    · exact h.1
  | fail p => simp only [SharedStore.step]; split <;> exact h.1

/-- Both invariants along a run. -/
lemma tidy_run (ho : Owned sys owner good) {inputs : List Input} (hs : Safe sys owner good w)
    (h : Tidy good w) (hi : Along (SharedStore.step sys) (Fits owner good) w inputs) :
    Safe sys owner good (inputs.foldl (SharedStore.step sys) w) ∧
      Tidy good (inputs.foldl (SharedStore.step sys) w) ∧
      Along (SharedStore.step sys) (fun u _ => Safe sys owner good u ∧ Tidy good u) w inputs := by
  induction inputs generalizing w with
  | nil => exact ⟨hs, h, trivial⟩
  | cons i inputs ih =>
    obtain ⟨hs', h', halong⟩ := ih (hs.step ho hi.1) (h.step ho hs hi.1) hi.2
    exact ⟨hs', h', ⟨hs, h⟩, halong⟩

end Runs

/-! ### A listing in a run -/

section Listed

variable {sys : System} {owner : String → Process} {good : SessionRecord → Prop} {dir : Dir}
  {before during : List Input} {q : Process} {names : List String}

/-- A listing begins with nothing read. -/
lemma listing_begin {w : Shared} (hfree : w.free q = true)
    {P : List String → List SessionRecord → Prop} (hP : P names []) :
    Listing q (results q w) P (2 * names.length + 1) 0 (step sys w (.list q names)) := by
  have hcall : step sys w (.list q names) = w.setCall q (.listing names []) := if_pos hfree
  have hruns : q ∈ w.running := by simpa using (Bool.and_eq_true_iff.mp hfree).1
  rw [hcall]
  exact .reading (by rw [setCall_calls, if_pos rfl]) hruns hP (by omega) rfl

/-- What a listing reads all through a run that keeps the invariants. -/
structure Kept (sys : System) (owner : String → Process) (good : SessionRecord → Prop)
    (w : Shared) (q : Process) (names : List String) (during : List Input) : Prop where
  first : Safe sys owner good w
  fits : Along (step sys) (Fits owner good) (step sys w (.list q names)) during
  last : Safe sys owner good (during.foldl (step sys) (step sys w (.list q names)))
  along : Along (step sys) (fun u _ => Safe sys owner good u ∧ Tidy good u)
    (step sys w (.list q names)) during

/-- What holds of every directory that is reached. -/
lemma reached (ho : Owned sys owner good)
    (hdir : ∀ name, extension name = some "json" → dir.lookup name = none) {inputs : List Input}
    (hi : Along (step sys) (Fits owner good) (.new dir) inputs) :
    Safe sys owner good (inputs.foldl (step sys) (.new dir)) ∧
      Tidy good (inputs.foldl (step sys) (.new dir)) := by
  have hnew : ∀ r, good r → dir.lookup (recordPath r.instanceId) = none := fun r hg =>
    hdir _ (extension_recordPath (ho.named r hg))
  have hempty : Tidy good (.new dir) := fun name hext hsome => by
    simp [Shared.new, hdir name hext] at hsome
  obtain ⟨hsafe, htidy, -⟩ := tidy_run ho (safe_new sys owner hnew) hempty hi
  exact ⟨hsafe, htidy⟩

lemma kept_listing (ho : Owned sys owner good)
    (hdir : ∀ name, extension name = some "json" → dir.lookup name = none)
    (hi : Along (step sys) (Fits owner good) (.new dir) (before ++ .list q names :: during)) :
    Kept sys owner good (before.foldl (step sys) (.new dir)) q names during := by
  obtain ⟨hbefore, -, hduring⟩ := along_append.mp hi
  obtain ⟨hsafe, htidy⟩ := reached ho hdir hbefore
  obtain ⟨hlast, -, hinv⟩ := tidy_run ho (hsafe.step ho (i := .list q names) trivial)
    (htidy.step ho hsafe (i := .list q names) trivial) hduring
  exact ⟨hsafe, hduring, hlast, hinv⟩

variable {w : Shared}

/-- A session that stays in place is in place at every moment of the listing. -/
lemma Kept.inPlace (ho : Owned sys owner good) (h : Kept sys owner good w q names during)
    {id : String} (hplace : InPlace owner w id) (hspared : ∀ i ∈ during, Spares owner id i) :
    Along (step sys) (fun u _ => Safe sys owner good u ∧ InPlace owner u id)
      (step sys w (.list q names)) during := by
  have hboth : Along (step sys) (fun u i => Fits owner good u i ∧ Spares owner id i)
      (step sys w (.list q names)) during :=
    along_iff.mpr fun pre i post he => ⟨along_iff.mp h.fits pre i post he,
      hspared i (he ▸ List.mem_append_right _ List.mem_cons_self)⟩
  exact along_of_inv (fun u i hu hf => ⟨hu, hu.1.step ho hf.1, hu.2.step hf.2⟩)
    ⟨h.first.step ho (i := .list q names) trivial, hplace.step (i := .list q names) trivial⟩
    hboth

/-- The listing while it goes through the run, each session found once. -/
lemma Kept.once (ho : Owned sys owner good) (h : Kept sys owner good w q names during)
    (hfree : w.free q = true) (hnodup : names.Nodup) (hlist : ∀ names', .list q names' ∉ during) :
    Listing q (results q w) (Once good) (2 * names.length + 1) (0 + during.countP (·.isTurn q))
      (during.foldl (step sys) (step sys w (.list q names))) :=
  (listing_begin hfree ⟨hnodup, by simp, by simp, by simp⟩).run
    (fun _ hu _ _ _ hf => hf.read ho hu.1 hu.2) h.along hlist

/-- A listing that has had its turns has returned. -/
lemma Kept.returns (ho : Owned sys owner good) (h : Kept sys owner good w q names during)
    (hfree : w.free q = true) (hnodup : names.Nodup) (hlist : ∀ names', .list q names' ∉ during)
    (hstill : q ∈ (during.foldl (step sys) (step sys w (.list q names))).running)
    (hturns : 2 * names.length < during.countP (·.isTurn q)) :
    ∃ records, results q (during.foldl (step sys) (step sys w (.list q names))) =
      results q w ++ [records] := by
  cases h.once ho hfree hnodup hlist with
  | reading _ _ _ hleft => omega
  | dropping _ _ _ hleft => omega
  | past _ _ hmore => exact ⟨_, hmore⟩
  | gone _ hended => exact absurd hstill (h.last.ended q hended)

/-- A session that stays in place, and whose name is gone through, is found. -/
lemma Kept.finds (ho : Owned sys owner good) (h : Kept sys owner good w q names during)
    (hfree : w.free q = true) (hlist : ∀ names', .list q names' ∉ during) {id : String}
    (hname : recordPath id ∈ names) (hplace : InPlace owner w id)
    (hspared : ∀ i ∈ during, Spares owner id i) {records : List SessionRecord}
    (hmore : results q (during.foldl (step sys) (step sys w (.list q names))) =
      results q w ++ [records]) : ∃ r ∈ records, r.instanceId = id := by
  -- the session stays in place, so its name is either to come or has been read
  have hcoming := (listing_begin hfree (P := Coming id) (.inl hname)).run
    (fun u hu _ _ _ hf => hf.read ho hu.1 hu.2) (h.inPlace ho hplace hspared) hlist
  obtain ⟨found, hfound, rfl⟩ := hcoming.found hmore
  rcases hfound with hnone | ⟨r, hr, hid⟩
  · simp at hnone
  · exact ⟨r, (sortBy_perm _).mem_iff.mpr hr, hid⟩

end Listed

/-- **Listings find the sessions.** Whatever the other processes do during a listing, wherever
they are killed, it returns once it has had its turns, if its own process runs on. What it returns
is in the order of the ids, with no id twice; it has only records that their owners saved; and it
has one of each session that is in place when it begins, is not deleted meanwhile, and whose
process runs on. -/
theorem listing_finds {sys : System} {owner : String → Process} {good : SessionRecord → Prop}
    (ho : Owned sys owner good) {dir : Dir}
    (hdir : ∀ name, extension name = some "json" → dir.lookup name = none)
    {before during : List Input} {q : Process} {names : List String}
    (hi : Along (step sys) (Fits owner good) (.new dir) (before ++ .list q names :: during))
    (hfree : (before.foldl (step sys) (.new dir)).free q = true) (hnodup : names.Nodup)
    (hlist : ∀ names', .list q names' ∉ during) :
    let w := before.foldl (step sys) (.new dir)
    let v := during.foldl (step sys) (step sys w (.list q names))
    (q ∈ v.running → 2 * names.length < during.countP (·.isTurn q) →
      ∃ records, results q v = results q w ++ [records]) ∧
    ∀ records, results q v = results q w ++ [records] →
      records.Pairwise (fun a b => a.instanceId < b.instanceId) ∧ (∀ r ∈ records, good r) ∧
      ∀ id, recordPath id ∈ names → InPlace owner w id → (∀ i ∈ during, Spares owner id i) →
        ∃ r ∈ records, r.instanceId = id := by
  intro w v
  have hkept := kept_listing ho hdir hi
  refine ⟨hkept.returns ho hfree hnodup hlist, fun records hmore => ?_⟩
  obtain ⟨found, hfound, rfl⟩ := (hkept.once ho hfree hnodup hlist).found hmore
  refine ⟨Store.pairwise_lt_of_nodup hfound.ids, fun r hr => hfound.good r ?_,
    fun id hname hplace hspared => hkept.finds ho hfree hlist hname hplace hspared hmore⟩
  exact (sortBy_perm _).mem_iff.mp hr

/-- The turns of a listing of one name, while another process lists it too and is killed. -/
def turns : List Input :=
  [.advance 1 0, .advance 0 0, .exit 1, .advance 0 0, .advance 0 0]

lemma free_attached :
    (attachedInputs.foldl (step attachedSystem) (.new ∅)).free 0 = true := by
  rw [foldl_attachedInputs]
  rfl

lemma inPlace_attached :
    InPlace (fun _ => 0) (attachedInputs.foldl (step attachedSystem) (.new ∅)) "a" := by
  rw [foldl_attachedInputs]
  refine ⟨?_, running_listening ∅⟩
  exact congrArg Option.isSome (Function.update_self "a" (some attached) (listening ∅).saved)

lemma fits_turns : Along (step attachedSystem) (Fits (fun _ => 0) (· = attached)) (.new ∅)
    (attachedInputs ++ .list 0 ["a.json"] :: turns) :=
  along_append.mpr ⟨fits_attachedInputs, trivial, trivial, trivial, trivial, trivial, trivial,
    trivial⟩

lemma spares_turns : ∀ i ∈ turns, Spares (fun _ => 0) "a" i := by
  simp [turns, Spares]

lemma running_turns : 0 ∈ (turns.foldl (step attachedSystem) (step attachedSystem
    (attachedInputs.foldl (step attachedSystem) (.new ∅)) (.list 0 ["a.json"]))).running :=
  inv_foldl_of (I := fun u : Shared => 0 ∈ u.running) (R := fun i : Input => i ≠ .exit 0)
    (fun _ _ hi h => running_step hi h) (running_step (by simp) inPlace_attached.2)
    (by simp [turns])

theorem listing_finds_attached : ∃ records,
    results 0 (turns.foldl (step attachedSystem) (step attachedSystem
        (attachedInputs.foldl (step attachedSystem) (.new ∅)) (.list 0 ["a.json"]))) =
      results 0 (attachedInputs.foldl (step attachedSystem) (.new ∅)) ++ [records] ∧
    ∃ r ∈ records, r.instanceId = "a" := by
  obtain ⟨hreturns, hfound⟩ := listing_finds owned_attached (by simp) fits_turns free_attached
    (List.nodup_singleton _) (by simp [turns])
  obtain ⟨records, hrecords⟩ := hreturns running_turns (by decide)
  exact ⟨records, hrecords, (hfound records hrecords).2.2 "a" (List.mem_singleton.mpr rfl)
    inPlace_attached spares_turns⟩

end DappyCore.SharedStore
