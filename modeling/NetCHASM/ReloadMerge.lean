import NetCHASM.State
import NetCHASM.Library.NewestWins
import NetCHASM.Library.Runs
import Mathlib.Order.Basic
import Mathlib.Algebra.Order.Ring.Int

/-! Check results across a reload. On the check list a restore is a run of merges, one for
each check of the old list and each of its addresses, and a merge keeps the newer result.
So a restore is described result by result, and a merge that runs beside workers on
either list never puts an older result in place of a newer one. -/
namespace ReloadMerge

open NetCHASM OrderedMap KeyOrder Runs NewestWins HMDataCheckList HMState

/-- The merge of one result, as a step on the new check list. -/
def mergeResult (src dest : HMDataCheckList) (h : HMCheckHeader) : HMDataCheckList :=
  match src.getCheckResult h with
  | none => dest
  | some result =>
    if isStale (dest.getCheckResult h) result then dest.updateCheck h (carried result) else dest

/-- The result of a header once the old one has been offered. -/
def merged (src dest : HMDataCheckList) (h : HMCheckHeader) : Option HMDataCheckResult :=
  keepNewest HMDataCheckResult.checkTime ((src.getCheckResult h).map carried)
    (dest.getCheckResult h)

theorem restoreResult_checkList (src dest : HMState) (h : HMCheckHeader) (a : HMIPAddress) :
    (restoreResult src h dest a).checkList =
      mergeResult src.checkList dest.checkList { h with address := a } := by
  unfold restoreResult mergeResult
  dsimp only
  cases src.checkList.getCheckResult { h with address := a } with
  | none => rfl
  | some result =>
    dsimp only
    split <;> rfl

@[simp] theorem lists_mergeResult (src dest : HMDataCheckList) (h h' : HMCheckHeader) :
    (mergeResult src dest h).lists h' = dest.lists h' := by
  unfold mergeResult
  split
  · rfl
  · split
    · rw [lists_updateCheck]
    · rfl

/-- A merge offers the old result to its own header, if that is listed, and to no other. -/
theorem getCheckResult_mergeResult (src dest : HMDataCheckList) (h h' : HMCheckHeader) :
    (mergeResult src dest h).getCheckResult h' =
      if sameResult h h' && dest.lists h' then merged src dest h' else dest.getCheckResult h' := by
  by_cases hsame : sameResult h h' = true
  · have hsrc := src.getCheckResult_congr hsame
    have hdest := dest.getCheckResult_congr hsame
    by_cases hl : dest.lists h' = true
    · unfold mergeResult
      rw [hsrc, hdest, hsame, hl, merged]
      cases src.getCheckResult h' with
      | none => simp
      | some result =>
        cases hd : dest.getCheckResult h' with
        | none => simp [isStale, keepNewest, getCheckResult_updateCheck, hsame, hl]
        | some r =>
          by_cases hlt : r.checkTime < result.checkTime
          · simp [isStale, keepNewest, getCheckResult_updateCheck, hsame, hl, hlt, carried]
          · simp [isStale, keepNewest, hlt, carried, hd]
    · have hnone : dest.getCheckResult h' = none := getCheckResult_of_not_lists (by simpa using hl)
      have hnone' : (mergeResult src dest h).getCheckResult h' = none :=
        getCheckResult_of_not_lists (by simpa using hl)
      rw [hnone', hnone]
      simp [hl]
  · unfold mergeResult
    cases src.getCheckResult h with
    | none => simp [hsame]
    | some result =>
      dsimp only
      split
      · simp [getCheckResult_updateCheck, hsame]
      · simp [hsame]

/-- The headers, with an address each, that a restore visits. -/
def visited (src : HMState) : List HMCheckHeader :=
  src.checkList.getAllChecks.flatMap fun h =>
    (restoredAddresses src h).map fun a => { h with address := a }

theorem restoreCheck_checkList (src dest : HMState) (h : HMCheckHeader) :
    (restoreCheck src dest h).checkList =
      ((restoredAddresses src h).map fun a => { h with address := a }).foldl
        (mergeResult src.checkList) dest.checkList := by
  have hfold : ∀ (as : List HMIPAddress) (d : HMState),
      (as.foldl (restoreResult src h) d).checkList =
        (as.map fun a => { h with address := a }).foldl (mergeResult src.checkList) d.checkList := by
    intro as
    induction as with
    | nil => exact fun _ => rfl
    | cons a as ih =>
      intro d
      rw [List.foldl_cons, ih, restoreResult_checkList]
      rfl
  unfold restoreCheck
  dsimp only
  rw [hfold]
  split <;> rfl

/-- On the check list a restore is a run of merges. -/
theorem restore_checkList (src dest : HMState) :
    (dest.restoreRunningCheckState src).checkList =
      (visited src).foldl (mergeResult src.checkList) dest.checkList := by
  have hfold : ∀ (hs : List HMCheckHeader) (d : HMState),
      (hs.foldl (restoreCheck src) d).checkList =
        (hs.flatMap fun h => (restoredAddresses src h).map fun a => { h with address := a }).foldl
          (mergeResult src.checkList) d.checkList := by
    intro hs
    induction hs with
    | nil => exact fun _ => rfl
    | cons h hs ih =>
      intro d
      rw [List.foldl_cons, ih, restoreCheck_checkList, List.flatMap_cons, List.foldl_append]
  exact hfold _ _

theorem lists_merges (src dest : HMDataCheckList) (hs : List HMCheckHeader) (h : HMCheckHeader) :
    (hs.foldl (mergeResult src) dest).lists h = dest.lists h := by
  induction hs generalizing dest with
  | nil => rfl
  | cons t hs ih => rw [List.foldl_cons, ih, lists_mergeResult]

/-- A header that is visited and listed gets the newer result, however often it is visited. -/
theorem getCheckResult_merges (src dest : HMDataCheckList) (hs : List HMCheckHeader)
    (h : HMCheckHeader) : (hs.foldl (mergeResult src) dest).getCheckResult h =
      if hs.any (fun t => sameResult t h) && dest.lists h then merged src dest h
      else dest.getCheckResult h := by
  induction hs generalizing dest with
  | nil => rfl
  | cons t hs ih =>
    rw [List.foldl_cons, ih, merged, getCheckResult_mergeResult, lists_mergeResult]
    cases hl : dest.lists h with
    | false => simp
    | true =>
      cases ht : sameResult t h with
      | false => simp [ht, merged]
      | true =>
        cases hs.any (fun t => sameResult t h) <;> simp [ht, merged]

/-- Once the old result has been offered, offering it again leaves the list as it is. -/
theorem mergeResult_of_merged {src dest : HMDataCheckList} {h : HMCheckHeader}
    (hmerged : dest.lists h = true → dest.getCheckResult h = merged src dest h) :
    mergeResult src dest h = dest := by
  unfold mergeResult
  cases hs : src.getCheckResult h with
  | none => rfl
  | some result =>
    dsimp only
    cases hl : dest.lists h with
    | false => rw [updateCheck_of_not_lists hl, ite_self]
    | true =>
      have hwon := hmerged hl
      rw [merged, hs] at hwon
      apply if_neg
      cases hd : dest.getCheckResult h with
      | none => simp [hd, keepNewest] at hwon
      | some r =>
        intro hstale
        have hlt : r.checkTime < result.checkTime := by simpa [isStale] using hstale
        have hr : carried result = r := by simpa [hd, keepNewest, carried, hlt] using hwon.symm
        rw [← hr] at hlt
        exact absurd hlt (lt_irrefl _)

theorem merges_again (src dest : HMDataCheckList) (hs : List HMCheckHeader) :
    hs.foldl (mergeResult src) (hs.foldl (mergeResult src) dest) =
      hs.foldl (mergeResult src) dest := by
  have hfixed : ∀ t ∈ hs, mergeResult src (hs.foldl (mergeResult src) dest) t =
      hs.foldl (mergeResult src) dest := by
    intro t ht
    apply mergeResult_of_merged
    intro hl
    rw [lists_merges] at hl
    have hany : hs.any (fun u => sameResult u t) = true :=
      List.any_eq_true.mpr ⟨t, ht, by simp [sameResult]⟩
    simp [merged, getCheckResult_merges, hany, hl]
  generalize hs.foldl (mergeResult src) dest = l at hfixed ⊢
  induction hs with
  | nil => rfl
  | cons t hs ih =>
    rw [List.foldl_cons, hfixed t List.mem_cons_self]
    exact ih fun u hu => hfixed u (List.mem_cons_of_mem t hu)

/-! Both lists beside the workers. -/

structure Lists where
  old : HMDataCheckList
  new : HMDataCheckList
  now : HMTimeStamp
  deriving DecidableEq, Repr

inductive Event where
  | start (onNew : Bool) (hostname : HMString) (hostCheck : HMDataHostCheck) (address : HMIPAddress)
  | complete (onNew : Bool) (hostname : HMString) (hostCheck : HMDataHostCheck)
      (address : HMIPAddress) (rep : CheckReport)
  | merge (h : HMCheckHeader)
  | advance (d : ℕ)
  deriving DecidableEq, Repr

/-- A worker holds one of the two states and applies its result there. -/
def onList (s : Lists) (onNew : Bool) (f : HMDataCheckList → HMDataCheckList) : Lists :=
  if onNew then { s with new := f s.new } else { s with old := f s.old }

/-- A health check reports no failed lookup, and its result is stamped with the clock. -/
def step (s : Lists) : Event → Option Lists
  | .start onNew hostname hostCheck address =>
    some (onList s onNew fun l => l.startCheck hostname hostCheck address s.now)
  | .complete onNew hostname hostCheck address rep =>
    if rep.response = .dnsFailed then none
    else some (onList s onNew fun l =>
      l.updateCheckWork hostname hostCheck address { rep with checkNow := s.now })
  | .merge h => some { s with new := mergeResult s.old s.new h }
  | .advance d => some { s with now := s.now + d }

/-- No stored result is stamped later than the clock. -/
def Bounded (l : HMDataCheckList) (now : HMTimeStamp) : Prop :=
  ∀ e ∈ l.checklist.entries, ∀ a r, e.2.getCheckResult a = some r → r.checkTime ≤ now

variable {l src dest : HMDataCheckList} {h : HMCheckHeader} {now : HMTimeStamp}

theorem Bounded.result (hb : Bounded l now) {r : HMDataCheckResult}
    (hr : l.getCheckResult h = some r) : r.checkTime ≤ now := by
  obtain ⟨p, hp, hget⟩ := List.exists_of_findSome?_eq_some hr
  rcases List.mem_map.mp hp with ⟨e, he, rfl⟩
  split at hget
  · exact hb e (List.mem_filter.mp he).1 _ r hget
  · cases hget

/-- Stamp the results of an address in every entry of a check. -/
def stampAt (l : HMDataCheckList) (key : CheckListKey) (address : HMIPAddress)
    (f : HMDataCheckParams → HMDataCheckResult → HMDataCheckResult) : HMDataCheckList :=
  { l with
    checklist := l.checklist.modify key fun p =>
      { p with checkData := p.checkData.modify address (f p) } }

section Stamps

variable {key : CheckListKey} {address : HMIPAddress}
  {f : HMDataCheckParams → HMDataCheckResult → HMDataCheckResult}

theorem bounded_stampAt (hb : Bounded l now) (hf : ∀ p r, (f p r).checkTime = now) :
    Bounded (stampAt l key address f) now := by
  intro e he a r hr
  rcases List.mem_map.mp he with ⟨e', he', rfl⟩
  dsimp only at hr
  split at hr
  · rw [HMDataCheckParams.getCheckResult, SortedMap.get?_modify] at hr
    split at hr
    · rcases Option.map_eq_some_iff.mp hr with ⟨r', -, rfl⟩
      rw [hf]
    · exact hb e' he' a r hr
  · exact hb e' he' a r hr

theorem findSome?_notOlder {α : Type} {u v : α → Option HMDataCheckResult} {xs : List α}
    (hnone : ∀ x ∈ xs, u x = none → v x = none)
    (hnewer : ∀ x ∈ xs, NotOlder HMDataCheckResult.checkTime (u x) (v x)) :
    NotOlder HMDataCheckResult.checkTime (xs.findSome? u) (xs.findSome? v) := by
  induction xs with
  | nil => exact NotOlder.refl _
  | cons x xs ih =>
    cases hu : u x with
    | none =>
      rw [List.findSome?_cons_of_isNone (by simp [hu]),
        List.findSome?_cons_of_isNone (by simp [hnone x List.mem_cons_self hu])]
      exact ih (fun y hy => hnone y (List.mem_cons_of_mem x hy))
        fun y hy => hnewer y (List.mem_cons_of_mem x hy)
    | some r =>
      obtain ⟨w, hw, hle⟩ := hnewer x List.mem_cons_self r hu
      intro r' hr'
      rw [List.findSome?_cons, hu] at hr'
      obtain rfl := Option.some.inj hr'
      exact ⟨w, by rw [List.findSome?_cons, hw], hle⟩

theorem notOlder_stampAt (hb : Bounded l now) (hf : ∀ p r, (f p r).checkTime = now) :
    NotOlder HMDataCheckResult.checkTime (l.getCheckResult h)
      ((stampAt l key address f).getCheckResult h) := by
  simp only [getCheckResult, stampAt, SortedMultimap.range_modify]
  split
  · rw [List.findSome?_map]
    have hget : ∀ p : HMDataCheckParams,
        HMDataCheckParams.getCheckResult { p with checkData := p.checkData.modify address (f p) }
          h.address = if eqv address h.address then (p.getCheckResult h.address).map (f p)
            else p.getCheckResult h.address := by
      intro p
      rw [HMDataCheckParams.getCheckResult, SortedMap.get?_modify]
      rfl
    apply findSome?_notOlder
    · intro p hp hnone
      simp only [Function.comp_apply, hget]
      split
      · rename_i hparams
        rw [if_pos hparams] at hnone
        simp [hnone]
      · rfl
    · intro p hp r hr
      rcases List.mem_map.mp hp with ⟨e, he, rfl⟩
      split at hr
      · rename_i hparams
        rw [Function.comp_apply, if_pos hparams, hget]
        split
        · refine ⟨f e.2 r, by rw [hr]; rfl, ?_⟩
          rw [hf]
          exact hb e (List.mem_filter.mp he).1 _ r hr
        · exact ⟨r, hr, le_refl _⟩
      · cases hr
  · exact NotOlder.refl _

end Stamps

theorem bounded_mergeResult (hsrc : Bounded src now) (hdest : Bounded dest now) :
    Bounded (mergeResult src dest h) now := by
  unfold mergeResult
  cases hs : src.getCheckResult h with
  | none => exact hdest
  | some result =>
    dsimp only
    split
    · intro e he a r hr
      rcases List.mem_map.mp he with ⟨e', he', rfl⟩
      dsimp only at hr
      split at hr
      · split at hr
        · rw [HMDataCheckParams.getCheckResult_replace] at hr
          split at hr
          · obtain rfl := Option.some.inj hr
            exact hsrc.result (r := result) hs
          · exact hdest e' he' a r hr
        · exact hdest e' he' a r hr
      · exact hdest e' he' a r hr
    · exact hdest

theorem notOlder_mergeResult (h' : HMCheckHeader) : NotOlder HMDataCheckResult.checkTime
    (dest.getCheckResult h') ((mergeResult src dest h).getCheckResult h') := by
  rw [getCheckResult_mergeResult]
  split
  · exact notOlder_keepNewest _ _
  · exact NotOlder.refl _

theorem bounded_mono {now' : HMTimeStamp} (hb : Bounded l now) (hle : now ≤ now') :
    Bounded l now' :=
  fun e he a r hr => le_trans (hb e he a r hr) hle

/-- No result of either list is replaced by an older one. -/
def Newer (s s' : Lists) : Prop :=
  ∀ h, NotOlder HMDataCheckResult.checkTime (s.old.getCheckResult h) (s'.old.getCheckResult h) ∧
    NotOlder HMDataCheckResult.checkTime (s.new.getCheckResult h) (s'.new.getCheckResult h)

variable {s s' : Lists}

theorem Newer.refl (s : Lists) : Newer s s := fun _ => ⟨NotOlder.refl _, NotOlder.refl _⟩

theorem Newer.trans {s'' : Lists} (h₁ : Newer s s') (h₂ : Newer s' s'') : Newer s s'' :=
  fun h => ⟨(h₁ h).1.trans (h₂ h).1, (h₁ h).2.trans (h₂ h).2⟩

theorem onList_stampAt (hb : Bounded s.old s.now ∧ Bounded s.new s.now) (onNew : Bool)
    (key : CheckListKey) (address : HMIPAddress)
    (f : HMDataCheckParams → HMDataCheckResult → HMDataCheckResult)
    (hf : ∀ p r, (f p r).checkTime = s.now) :
    (Bounded (onList s onNew fun l => stampAt l key address f).old s.now ∧
      Bounded (onList s onNew fun l => stampAt l key address f).new s.now) ∧
      Newer s (onList s onNew fun l => stampAt l key address f) := by
  cases onNew with
  | true =>
    exact ⟨⟨hb.1, bounded_stampAt hb.2 hf⟩,
      fun h => ⟨NotOlder.refl _, notOlder_stampAt hb.2 hf⟩⟩
  | false =>
    exact ⟨⟨bounded_stampAt hb.1 hf, hb.2⟩,
      fun h => ⟨notOlder_stampAt hb.1 hf, NotOlder.refl _⟩⟩

theorem step_newer {e : Event} (hb : Bounded s.old s.now ∧ Bounded s.new s.now)
    (hstep : step s e = some s') : (Bounded s'.old s'.now ∧ Bounded s'.new s'.now) ∧ Newer s s' := by
  cases e with
  | start onNew hostname hostCheck address =>
    obtain rfl := Option.some.inj hstep
    have hstamp := onList_stampAt hb onNew ⟨hostname, hostCheck⟩ address
      (fun _ r => { r with checkTime := s.now, queryState := .inProgress }) fun _ _ => rfl
    have hnow : (onList s onNew fun l => l.startCheck hostname hostCheck address s.now).now =
        s.now := by cases onNew <;> rfl
    rw [hnow]
    exact hstamp
  | complete onNew hostname hostCheck address rep =>
    simp only [step] at hstep
    split at hstep
    · cases hstep
    · rename_i hresponse
      obtain rfl := Option.some.inj hstep
      have hstamp := onList_stampAt hb onNew ⟨hostname, hostCheck⟩ address
        (fun p => p.toCheckParameters.updateResult address { rep with checkNow := s.now })
        fun p r => by rw [CheckParameters.updateResult_checkTime, if_neg hresponse]
      have hnow : (onList s onNew fun l => l.updateCheckWork hostname hostCheck address
          { rep with checkNow := s.now }).now = s.now := by cases onNew <;> rfl
      rw [hnow]
      exact hstamp
  | merge h =>
    obtain rfl := Option.some.inj hstep
    exact ⟨⟨hb.1, bounded_mergeResult hb.1 hb.2⟩,
      fun h' => ⟨NotOlder.refl _, notOlder_mergeResult h'⟩⟩
  | advance d =>
    obtain rfl := Option.some.inj hstep
    have hle : s.now ≤ s.now + d := by grind
    exact ⟨⟨bounded_mono hb.1 hle, bounded_mono hb.2 hle⟩, Newer.refl s⟩

theorem run_newer {es : List Event} (hb : Bounded s.old s.now ∧ Bounded s.new s.now)
    (hrun : runTrace step s es = some s') : Newer s s' := by
  induction es generalizing s with
  | nil =>
    obtain rfl : s = s' := by simpa using hrun
    exact Newer.refl s
  | cons e es ih =>
    rcases runTrace_cons.mp hrun with ⟨m, hm, hrest⟩
    obtain ⟨hbounded, hnewer⟩ := step_newer hb hm
    exact hnewer.trans (ih hbounded hrest)

/-- A DNS-flow header that the old list has, at an address of the old DNS cache. -/
def Offered (src : HMState) (h : HMCheckHeader) : Prop :=
  src.checkList.lists h = true ∧ h.address ∈ (src.dnsAddresses h).toList

theorem visited_iff_offered {src : HMState} (hflow : h.hostCheck.flowType = .dnsHealth) :
    (visited src).any (fun t => sameResult t h) = true ↔ Offered src h := by
  -- What a restore visits for a check depends only on what the comparator of the list reads.
  have haddr : ∀ t : HMCheckHeader, eqv t.key h.key = true →
      restoredAddresses src t = (src.dnsAddresses h).toList := by
    intro t ht
    rcases CheckListKey.eqv_iff_fields.mp ht with ⟨hhost, hbeq, htype⟩
    have hfields : t.hostCheck.remoteCheck = h.hostCheck.remoteCheck ∧
        t.hostCheck.flowType = h.hostCheck.flowType := by
      simp_all [HMDataHostCheck.beq, HMCheckHeader.key]
    have hhost' : t.hostname = h.hostname := hhost
    have htype' : t.hostCheck.dnsType = h.hostCheck.dnsType := htype
    simp [restoredAddresses, hfields.2, hflow, dnsAddresses, hhost', htype', hfields.1]
  simp only [List.any_eq_true, visited, List.mem_flatMap, List.mem_map, Offered, lists_iff]
  constructor
  · rintro ⟨_, ⟨t, ht, a, ha, rfl⟩, hsame⟩
    simp only [sameResult, Bool.and_eq_true, decide_eq_true_eq] at hsame
    rw [haddr t hsame.1.1] at ha
    exact ⟨⟨t, ht, hsame.1.1, hsame.1.2⟩, hsame.2 ▸ ha⟩
  · rintro ⟨⟨t, ht, hk, hp⟩, ha⟩
    refine ⟨{ t with address := h.address }, ⟨t, ht, h.address, ?_, rfl⟩, ?_⟩
    · rwa [haddr t hk]
    · have hk' : eqv (HMCheckHeader.key { t with address := h.address }) h.key = true := hk
      simp only [sameResult, Bool.and_eq_true, decide_eq_true_eq]
      exact ⟨⟨hk', hp⟩, trivial⟩

/-- A restore offers the old results of the DNS-flow checks that both lists have, keeps the
newer result of each, changes no other, and does nothing the second time. Beside workers
on both lists its merges never replace a result by an older one. -/
theorem reload_keeps_newest_result (src dest : HMState) :
    (∀ h : HMCheckHeader, h.hostCheck.flowType = .dnsHealth → Offered src h →
      dest.checkList.lists h = true →
      (dest.restoreRunningCheckState src).checkList.getCheckResult h =
        keepNewest HMDataCheckResult.checkTime ((src.checkList.getCheckResult h).map carried)
          (dest.checkList.getCheckResult h)) ∧
    (∀ h : HMCheckHeader, h.hostCheck.flowType = .dnsHealth →
      ¬ (Offered src h ∧ dest.checkList.lists h = true) →
      (dest.restoreRunningCheckState src).checkList.getCheckResult h =
        dest.checkList.getCheckResult h) ∧
    ((dest.restoreRunningCheckState src).restoreRunningCheckState src).checkList =
      (dest.restoreRunningCheckState src).checkList ∧
    (∀ s h s', step s (.merge h) = some s' → s'.old = s.old) ∧
    ∀ es s s', Bounded s.old s.now → Bounded s.new s.now → runTrace step s es = some s' →
      Newer s s' := by
  refine ⟨?_, ?_, ?_, ?_, ?_⟩
  · intro h hflow hoffered hlists
    have hvisited := (visited_iff_offered hflow).mpr hoffered
    rw [restore_checkList, getCheckResult_merges, hvisited, hlists]
    rfl
  · intro h hflow hnot
    rw [restore_checkList, getCheckResult_merges]
    apply if_neg
    intro hboth
    rcases (Bool.and_eq_true _ _).mp hboth with ⟨hvisited, hlists⟩
    exact hnot ⟨(visited_iff_offered hflow).mp hvisited, hlists⟩
  · rw [restore_checkList, restore_checkList]
    exact merges_again _ _ _
  · intro s h s' hstep
    obtain rfl := Option.some.inj hstep
    rfl
  · intro es s s' hold hnew hrun
    exact run_newer ⟨hold, hnew⟩ hrun

/-- One group of one host at one address, whose last check was at the given time. -/
def sampleState (checkTime : HMTimeStamp) : HMState :=
  let s := HMState.generateCheckList .default (SortedMap.empty.insert (bytes "web")
    { HMDataHostGroup.new (bytes "web") with hosts := [bytes "a"] })
  { s with
    dnsCache := s.dnsCache.updateDNSEntry (bytes "a") (.new .lookup false [])
      (SortedMap.empty.insert (.v4 1) ())
    checkList := s.checkList.getAllChecks.foldl (fun l h => l.updateCheck
      { h with address := .v4 1 } { HMDataCheckResult.new 0 with checkTime := checkTime }) s.checkList }

def sampleHeader : HMCheckHeader :=
  ⟨bytes "a", .v4 1, .default, CheckParameters.default⟩

theorem reload_keeps_newest_result_sample :
    sampleHeader.hostCheck.flowType = .dnsHealth ∧ Offered (sampleState 5) sampleHeader ∧
      (sampleState 3).checkList.lists sampleHeader = true ∧
      ((sampleState 3).restoreRunningCheckState (sampleState 5)).checkList.getCheckResult
        sampleHeader = some { HMDataCheckResult.new 0 with checkTime := 5 } := by
  have hflow : sampleHeader.hostCheck.flowType = .dnsHealth := rfl
  have hoffered : Offered (sampleState 5) sampleHeader :=
    ⟨by decide +kernel, by decide +kernel⟩
  have hlists : (sampleState 3).checkList.lists sampleHeader = true := by decide +kernel
  refine ⟨hflow, hoffered, hlists, ?_⟩
  rw [(reload_keeps_newest_result (sampleState 5) (sampleState 3)).1 sampleHeader hflow hoffered
    hlists]
  decide +kernel

end ReloadMerge
