import PatronLoyalty.Ticketing.Schema

/-!
# Repairing station profiles

`StationProfileService.repairJourneyProfileQueues` gives a station the queues of a journey's steps, with
the capabilities they need: it looks for what is wrong, rewrites the rows of the steps' queues, and adds
those that are missing (`syncMissingJourneyProfileQueues`), each from a read of its own. All of it is
done as the organisation, and the tables are what that one sees.

Headline: **`repair_converges`**, what a repair leaves, and that the next one finds nothing to do.
-/

namespace PatronLoyalty.Workbench

open Loyalty (Id)
open Ticketing (BranchFlowStep QueueStepRole)

/-! ## Rows -/

/-- The JSON column: an array of texts and other values, or no array. -/
inductive Capabilities (Json : Type)
  | array (items : List (String ⊕ Json))
  | other (json : Json)

structure StationProfileQueue (Json : Type) where
  stationProfileId : Id
  queueId : Id
  sortOrder : ℤ
  visibilityOnly : Bool := false
  capabilities : Capabilities Json

def StationProfileQueue.key {Json : Type} (r : StationProfileQueue Json) : Id × Id :=
  (r.stationProfileId, r.queueId)

structure ProfileTables (Json : Type) where
  flowSteps : List BranchFlowStep
  /-- With their branches, as the profiles. -/
  queues : List (Id × Id)
  stationProfiles : List (Id × Id)
  profileQueues : List (StationProfileQueue Json)

def defaultServiceCapabilities : List String :=
  ["call", "serve", "complete", "no_show", "cancel", "transfer"]

def defaultPickupCapabilities : List String :=
  ["mark_ready", "call", "serve", "complete", "no_show", "cancel"]

def defaultCombinedCapabilities : List String := defaultServiceCapabilities ++ ["mark_ready"]

def capabilitiesForJourneyFlowStep (stepRole : QueueStepRole) : List String :=
  if stepRole = .pickup then defaultPickupCapabilities else defaultCombinedCapabilities

section

variable {Json : Type}

/-- `Array.isArray(row.capabilities) && row.capabilities.includes(cap)`. -/
def Capabilities.includes (c : Capabilities Json) (cap : String) : Bool :=
  match c with
  | .array items => items.any fun x => x.getLeft? == some cap
  | .other _ => false

def Capabilities.ofTexts (caps : List String) : Capabilities Json := .array (caps.map Sum.inl)

/-! ## The repair -/

/-- `orderBy: { stepIndex: 'asc' }`. -/
def ProfileTables.findSteps (t : ProfileTables Json) (templateId : Id) : List BranchFlowStep :=
  (t.flowSteps.filter (·.templateId == templateId)).insertionSort fun a b => a.stepIndex ≤ b.stepIndex

def ProfileTables.queuesOf (t : ProfileTables Json) (stationProfileId : Id) :
    List (StationProfileQueue Json) :=
  t.profileQueues.filter (·.stationProfileId == stationProfileId)

def ProfileTables.write (t : ProfileTables Json) (rows : List (StationProfileQueue Json)) :
    ProfileTables Json := { t with profileQueues := rows }

/-- `new Map(profileQueues.map((q) => [q.queueId, q])).get(queueId)`: the last row of the queue. -/
def profileByQueue (rows : List (StationProfileQueue Json)) (queueId : Id) :
    Option (StationProfileQueue Json) :=
  (rows.filter (·.queueId == queueId)).getLast?

def needsRepair (rows : List (StationProfileQueue Json)) (step : BranchFlowStep) : Bool :=
  step.queueId.any fun queueId => (profileByQueue rows queueId).all fun row => row.visibilityOnly ||
    (capabilitiesForJourneyFlowStep step.stepRole).any fun cap => !row.capabilities.includes cap

def missingQueue (rows : List (StationProfileQueue Json)) (step : BranchFlowStep) : Bool :=
  step.queueId.any fun queueId => (profileByQueue rows queueId).isNone

/-- `updateMany` of a step's queue, on a row. -/
def rewrite (stationProfileId : Id) (r : StationProfileQueue Json) (step : BranchFlowStep) :
    StationProfileQueue Json :=
  if r.stationProfileId = stationProfileId ∧ step.queueId = some r.queueId then
    { r with
      visibilityOnly := false
      capabilities := .ofTexts (capabilitiesForJourneyFlowStep step.stepRole) }
  else r

def rewriteAll (stationProfileId : Id) (steps : List BranchFlowStep)
    (rows : List (StationProfileQueue Json)) : List (StationProfileQueue Json) :=
  steps.foldl (fun rows step => rows.map (rewrite stationProfileId · step)) rows

def ProfileTables.validateQueues (t : ProfileTables Json) (branchId : Id) (queueIds : List Id) : Bool :=
  (t.queues.filter fun q => q.2 == branchId && queueIds.contains q.1).length == queueIds.length

/-- `createMany({ skipDuplicates: true })`, under the unique index on profile and queue. -/
def createMany (rows data : List (StationProfileQueue Json)) : List (StationProfileQueue Json) :=
  data.foldl (fun rows d => if rows.any (·.key == d.key) then rows else rows ++ [d]) rows

def missingSteps (rows : List (StationProfileQueue Json)) (steps : List BranchFlowStep) :
    List (Id × QueueStepRole) :=
  steps.filterMap fun step => step.queueId.bind fun queueId =>
    if rows.any (·.queueId == queueId) then none else some (queueId, step.stepRole)

/-- `reduce((max, q) => Math.max(max, q.sortOrder), -1)`. -/
def maxSort (rows : List (StationProfileQueue Json)) : ℤ := (rows.map (·.sortOrder)).foldr max (-1)

def newQueues (stationProfileId : Id) (nextSort : ℤ) (missing : List (Id × QueueStepRole)) :
    List (StationProfileQueue Json) :=
  missing.mapIdx fun i m =>
    { stationProfileId
      queueId := m.1
      sortOrder := nextSort + i
      capabilities := .ofTexts (capabilitiesForJourneyFlowStep m.2) }

def syncMissingJourneyProfileQueues (t : ProfileTables Json) (stationProfileId templateId : Id) :
    Except String (ProfileTables Json) :=
  match t.stationProfiles.lookup stationProfileId with
  | none => .ok t
  | some branchId =>
    let rows := t.queuesOf stationProfileId
    let missing := missingSteps rows (t.findSteps templateId)
    if missing = [] then .ok t
    else if t.validateQueues branchId (missing.map (·.1)) then
      .ok (t.write (createMany t.profileQueues
        (newQueues stationProfileId (maxSort rows + 1) missing)))
    else .error "One or more queues do not belong to this branch"

/-- What is left, and the answer. -/
def repairJourneyProfileQueues (t : ProfileTables Json) (stationProfileId templateId : Id) :
    ProfileTables Json × Except String Bool :=
  let steps := t.findSteps templateId
  let rows := t.queuesOf stationProfileId
  if !steps.any (needsRepair rows) && !steps.any (missingQueue rows) then (t, .ok false)
  else
    let t' := t.write (rewriteAll stationProfileId steps t.profileQueues)
    match syncMissingJourneyProfileQueues t' stationProfileId templateId with
    | .ok t'' => (t'', .ok true)
    | .error e => (t', .error e)

/-! ## What it is for -/

def Unique (rows : List (StationProfileQueue Json)) : Prop := (rows.map (·.key)).Nodup

/-- **The step is served**: its queue, if it has one, has a row, which is not view-only and has the
capabilities the step needs. -/
def Served (stationProfileId : Id) (rows : List (StationProfileQueue Json)) (step : BranchFlowStep) :
    Prop :=
  ∀ queueId, step.queueId = some queueId → ∃ r ∈ rows, r.stationProfileId = stationProfileId ∧
    r.queueId = queueId ∧ r.visibilityOnly = false ∧
    ∀ cap ∈ capabilitiesForJourneyFlowStep step.stepRole, r.capabilities.includes cap = true

def elsewhere (stationProfileId : Id) (steps : List BranchFlowStep) (r : StationProfileQueue Json) :
    Bool :=
  !(r.stationProfileId == stationProfileId && steps.any (·.queueId == some r.queueId))

def Different (steps : List BranchFlowStep) : Prop :=
  steps.Pairwise fun a b => ∀ queueId, a.queueId = some queueId → b.queueId ≠ some queueId

/-- An existing profile, and a template whose steps use different queues of its branch. -/
structure Repairable (t : ProfileTables Json) (stationProfileId templateId : Id) : Prop where
  unique : Unique t.profileQueues
  keys : (t.queues.map (·.1)).Nodup
  different : Different (t.findSteps templateId)
  ofBranch : ∃ branchId, t.stationProfiles.lookup stationProfileId = some branchId ∧
    ∀ step ∈ t.findSteps templateId, ∀ queueId, step.queueId = some queueId →
      (queueId, branchId) ∈ t.queues

end

section

variable {Json : Type} {t : ProfileTables Json} {p templateId q : Id} {n : ℤ}
  {rows data : List (StationProfileQueue Json)} {r d : StationProfileQueue Json}
  {steps steps' : List BranchFlowStep} {step : BranchFlowStep} {missing : List (Id × QueueStepRole)}

theorem stationProfiles_write : (t.write rows).stationProfiles = t.stationProfiles := rfl

theorem findSteps_write : (t.write rows).findSteps templateId = t.findSteps templateId := rfl

theorem includes_ofTexts {caps : List String} {cap : String} (h : cap ∈ caps) :
    (Capabilities.ofTexts caps : Capabilities Json).includes cap = true :=
  List.any_eq_true.mpr ⟨.inl cap, List.mem_map_of_mem h, by simp⟩

/-! ## Detection -/

theorem profileByQueue_eq_some (hu : Unique t.profileQueues) :
    profileByQueue (t.queuesOf p) q = some r ↔
      r ∈ t.profileQueues ∧ r.stationProfileId = p ∧ r.queueId = q := by
  have hmem : ∀ x, x ∈ (t.queuesOf p).filter (·.queueId == q) ↔
      x ∈ t.profileQueues ∧ x.stationProfileId = p ∧ x.queueId = q := by
    intro x
    simp only [ProfileTables.queuesOf, List.mem_filter, beq_iff_eq, and_assoc]
  unfold profileByQueue
  constructor
  · exact fun h => (hmem r).mp (List.mem_of_getLast? h)
  · intro h
    cases hl : ((t.queuesOf p).filter (·.queueId == q)).getLast? with
    | none =>
      rw [List.getLast?_eq_none_iff] at hl
      exact absurd ((hmem r).mpr h) (by rw [hl]; exact List.not_mem_nil)
    | some x =>
      obtain ⟨hx, hxp, hxq⟩ := (hmem x).mp (List.mem_of_getLast? hl)
      have hkey : x.key = r.key := Prod.ext (hxp.trans h.2.1.symm) (hxq.trans h.2.2.symm)
      rw [List.inj_on_of_nodup_map hu hx h.1 hkey]

/-- **What is served** is found so, and only that. -/
theorem served_iff (hu : Unique t.profileQueues) :
    needsRepair (t.queuesOf p) step = false ↔ Served p t.profileQueues step := by
  unfold needsRepair Served
  cases step.queueId with
  | none => simp
  | some queueId =>
    rw [Option.any_some]
    cases hb : profileByQueue (t.queuesOf p) queueId with
    | none =>
      simp only [Option.all_none, Bool.true_eq_false, false_iff, not_forall]
      refine ⟨queueId, rfl, fun hx => ?_⟩
      obtain ⟨r, hr, hp, hq, -⟩ := hx
      cases hb.symm.trans ((profileByQueue_eq_some hu).mpr ⟨hr, hp, hq⟩)
    | some r =>
      have hrow := (profileByQueue_eq_some hu).mp hb
      rw [Option.all_some, Bool.or_eq_false_iff, List.any_eq_false]
      simp only [Bool.not_eq_true', Bool.not_eq_false]
      constructor
      · rintro ⟨hv, hc⟩ queueId' he
        cases he
        exact ⟨r, hrow.1, hrow.2.1, hrow.2.2, hv, hc⟩
      · intro h
        obtain ⟨x, hx, hxp, hxq, hv, hc⟩ := h queueId rfl
        cases hb.symm.trans ((profileByQueue_eq_some hu).mpr ⟨hx, hxp, hxq⟩)
        exact ⟨hv, hc⟩

theorem needsRepair_of_missing (h : missingQueue rows step = true) : needsRepair rows step = true := by
  unfold missingQueue at h
  unfold needsRepair
  cases hq : step.queueId with
  | none =>
    rw [hq] at h
    cases h
  | some queueId =>
    rw [hq, Option.any_some, Option.isNone_iff_eq_none] at h
    rw [Option.any_some, h]
    rfl

/-! ## The rewrite -/

def rewriteRow (stationProfileId : Id) (steps : List BranchFlowStep) (r : StationProfileQueue Json) :
    StationProfileQueue Json := steps.foldl (rewrite stationProfileId) r

theorem rewriteAll_eq : rewriteAll p steps rows = rows.map (rewriteRow p steps) := by
  unfold rewriteAll rewriteRow
  induction steps generalizing rows with
  | nil => simp
  | cons step steps ih =>
    rw [List.foldl_cons, ih, List.map_map]
    rfl

theorem rewriteRow_key : (rewriteRow p steps r).stationProfileId = r.stationProfileId ∧
    (rewriteRow p steps r).queueId = r.queueId ∧ (rewriteRow p steps r).sortOrder = r.sortOrder := by
  unfold rewriteRow
  induction steps generalizing r with
  | nil => exact ⟨rfl, rfl, rfl⟩
  | cons step steps ih =>
    have hkey : (rewrite p r step).stationProfileId = r.stationProfileId ∧
        (rewrite p r step).queueId = r.queueId ∧ (rewrite p r step).sortOrder = r.sortOrder := by
      unfold rewrite
      split
      · exact ⟨rfl, rfl, rfl⟩
      · exact ⟨rfl, rfl, rfl⟩
    obtain ⟨hp, hq, hs⟩ := ih (r := rewrite p r step)
    exact ⟨hp.trans hkey.1, hq.trans hkey.2.1, hs.trans hkey.2.2⟩

theorem rewriteRow_elsewhere (h : elsewhere p steps r = true) : rewriteRow p steps r = r := by
  unfold rewriteRow
  induction steps with
  | nil => rfl
  | cons step steps ih =>
    simp only [elsewhere, List.any_cons, Bool.and_or_distrib_left, Bool.not_or, Bool.and_eq_true,
      Bool.not_eq_true', Bool.and_eq_false_imp, beq_iff_eq, beq_eq_false_iff_ne] at h
    have hr : rewrite p r step = r := if_neg fun hx => h.1 hx.1 hx.2
    rw [List.foldl_cons, hr]
    refine ih ?_
    unfold elsewhere
    rw [Bool.not_eq_true', Bool.and_eq_false_imp]
    exact fun hp => h.2 (eq_of_beq hp)

theorem rewriteRow_of_step (hd : Different steps) (hs : step ∈ steps) (hp : r.stationProfileId = p)
    (hq : step.queueId = some r.queueId) : (rewriteRow p steps r).visibilityOnly = false ∧
      (rewriteRow p steps r).capabilities =
        .ofTexts (capabilitiesForJourneyFlowStep step.stepRole) := by
  induction steps generalizing r with
  | nil => cases hs
  | cons first steps ih =>
    obtain ⟨hfirst, hrest⟩ := List.pairwise_cons.mp hd
    have hkp : (rewriteRow p [first] r).stationProfileId = r.stationProfileId := rewriteRow_key.1
    have hkq : (rewriteRow p [first] r).queueId = r.queueId := rewriteRow_key.2.1
    change (rewriteRow p steps (rewriteRow p [first] r)).visibilityOnly = false ∧
      (rewriteRow p steps (rewriteRow p [first] r)).capabilities = _
    rcases List.mem_cons.mp hs with rfl | hs
    · -- No later step has the queue.
      rw [rewriteRow_elsewhere (r := rewriteRow p [step] r)]
      · change (rewrite p r step).visibilityOnly = false ∧ (rewrite p r step).capabilities = _
        rw [rewrite, if_pos ⟨hp, hq⟩]
        exact ⟨rfl, rfl⟩
      · unfold elsewhere
        rw [hkq, Bool.not_eq_true', Bool.and_eq_false_imp]
        exact fun _ => List.any_eq_false.mpr fun s hs => by simpa using hfirst s hs _ hq
    · exact ih hrest hs (hkp.trans hp) (by rw [hkq, hq])

theorem filter_rewriteRow {f : StationProfileQueue Json → Bool}
    (hf : ∀ r, f (rewriteRow p steps r) = f r) :
    (rows.map (rewriteRow p steps)).filter f = (rows.filter f).map (rewriteRow p steps) := by
  rw [List.filter_map]
  congr 1
  exact List.filter_congr fun r _ => hf r

theorem queuesOf_rewrite : (t.write (t.profileQueues.map (rewriteRow p steps))).queuesOf p =
    (t.queuesOf p).map (rewriteRow p steps) :=
  filter_rewriteRow fun r => by rw [rewriteRow_key.1]

theorem missingSteps_rewrite : missingSteps (rows.map (rewriteRow p steps)) steps' =
    missingSteps rows steps' := by
  have hkey : ∀ q, (rows.map (rewriteRow p steps)).any (·.queueId == q) =
      rows.any (·.queueId == q) := by
    intro q
    rw [List.any_map]
    refine congrArg (List.any rows) (funext fun r => ?_)
    rw [Function.comp_apply, rewriteRow_key.2.1]
  unfold missingSteps
  simp only [hkey]

theorem sortOrder_rewrite : (rows.map (rewriteRow p steps)).map (·.sortOrder) =
    rows.map (·.sortOrder) := by
  rw [List.map_map]
  exact List.map_congr_left fun r _ => rewriteRow_key.2.2

theorem maxSort_rewrite : maxSort (rows.map (rewriteRow p steps)) = maxSort rows := by
  unfold maxSort
  rw [sortOrder_rewrite]

/-! ## The insertion -/

theorem createMany_eq (h : Unique (rows ++ data)) : createMany rows data = rows ++ data := by
  unfold createMany
  induction data generalizing rows with
  | nil => simp
  | cons d data ih =>
    have hfree : ¬ (rows.any (·.key == d.key)) = true := by
      intro hx
      obtain ⟨r, hr, hk⟩ := List.any_eq_true.mp hx
      rw [Unique, List.map_append, List.nodup_append] at h
      exact h.2.2 _ (List.mem_map_of_mem hr) _ List.mem_cons_self (eq_of_beq hk)
    rw [List.foldl_cons, if_neg hfree, ih (by rwa [List.append_assoc]), List.append_assoc]
    rfl

theorem mem_missingSteps {m : Id × QueueStepRole} : m ∈ missingSteps rows steps ↔
    (∀ r ∈ rows, r.queueId ≠ m.1) ∧ ∃ step ∈ steps, step.queueId = some m.1 ∧ step.stepRole = m.2 := by
  unfold missingSteps
  rw [List.mem_filterMap]
  constructor
  · rintro ⟨step, hs, h⟩
    obtain ⟨queueId, hq, h⟩ := Option.bind_eq_some_iff.mp h
    obtain ⟨hno, h⟩ := Option.ite_none_left_eq_some.mp h
    cases h
    exact ⟨by simpa using hno, step, hs, hq, rfl⟩
  · rintro ⟨hno, step, hs, hq, hrole⟩
    refine ⟨step, hs, ?_⟩
    rw [hq, Option.bind_some, if_neg (by simpa using hno), hrole]

theorem missingSteps_pairwise (hd : Different steps) :
    (missingSteps rows steps).Pairwise fun m m' => m.1 ≠ m'.1 := by
  unfold missingSteps
  rw [List.pairwise_filterMap]
  refine hd.imp fun {a b} hab m hm m' hm' => ?_
  obtain ⟨qa, hqa, hm⟩ := Option.bind_eq_some_iff.mp hm
  obtain ⟨qb, hqb, hm'⟩ := Option.bind_eq_some_iff.mp hm'
  cases (Option.ite_none_left_eq_some.mp hm).2
  cases (Option.ite_none_left_eq_some.mp hm').2
  rintro rfl
  exact hab _ hqa hqb

theorem mem_newQueues (h : r ∈ (newQueues p n missing : List (StationProfileQueue Json))) :
    r.stationProfileId = p ∧ n ≤ r.sortOrder ∧ ∃ m ∈ missing, r.queueId = m.1 := by
  obtain ⟨i, hi, rfl⟩ := List.mem_mapIdx.mp h
  refine ⟨rfl, ?_, _, List.getElem_mem hi, rfl⟩
  dsimp only
  omega

theorem exists_newQueue {m : Id × QueueStepRole} (h : m ∈ missing) :
    ∃ d ∈ (newQueues p n missing : List (StationProfileQueue Json)), d.queueId = m.1 ∧
      d.visibilityOnly = false ∧ d.capabilities = .ofTexts (capabilitiesForJourneyFlowStep m.2) := by
  obtain ⟨i, hi, rfl⟩ := List.getElem_of_mem h
  exact ⟨_, List.mem_mapIdx.mpr ⟨i, hi, rfl⟩, rfl, rfl, rfl⟩

theorem newQueues_pairwise (h : missing.Pairwise fun m m' => m.1 ≠ m'.1) :
    (newQueues p n missing : List (StationProfileQueue Json)).Pairwise fun d d' =>
      d.queueId ≠ d'.queueId ∧ d.sortOrder ≠ d'.sortOrder := by
  unfold newQueues
  rw [List.pairwise_iff_getElem] at h ⊢
  intro i j hi hj hij
  rw [List.length_mapIdx] at hi hj
  simp only [List.getElem_mapIdx]
  exact ⟨h i j hi hj hij, by omega⟩

theorem Repairable.validateQueues (h : Repairable t p templateId) {branchId : Id}
    (hp : t.stationProfiles.lookup p = some branchId) : t.validateQueues branchId
      ((missingSteps rows (t.findSteps templateId)).map (·.1)) = true := by
  obtain ⟨branchId', hp', hall⟩ := h.ofBranch
  cases hp.symm.trans hp'
  have hnodup : ((missingSteps rows (t.findSteps templateId)).map (·.1)).Nodup :=
    List.pairwise_map.mpr (missingSteps_pairwise h.different)
  unfold ProfileTables.validateQueues
  rw [beq_iff_eq, ← List.length_map (f := (·.1))]
  refine ((List.perm_ext_iff_of_nodup (h.keys.sublist (List.filter_sublist.map _)) hnodup).mpr
    fun q => ⟨fun hq => ?_, fun hq => ?_⟩).length_eq
  · obtain ⟨x, hx, rfl⟩ := List.mem_map.mp hq
    have hx := (List.mem_filter.mp hx).2
    simp only [Bool.and_eq_true, List.contains_iff_mem] at hx
    exact hx.2
  · obtain ⟨m, hm, rfl⟩ := List.mem_map.mp hq
    obtain ⟨-, step, hs, hqueue, -⟩ := mem_missingSteps.mp hm
    refine List.mem_map.mpr ⟨_, List.mem_filter.mpr ⟨hall step hs m.1 hqueue, ?_⟩, rfl⟩
    simp only [Bool.and_eq_true, List.contains_iff_mem, beq_self_eq_true, true_and]
    exact hq

theorem le_maxSort (h : r ∈ rows) : r.sortOrder ≤ maxSort rows := by
  unfold maxSort
  induction rows with
  | nil => cases h
  | cons x rows ih =>
    rcases List.mem_cons.mp h with rfl | h
    · exact le_max_left _ _
    · exact (ih h).trans (le_max_right _ _)

/-! ## What a repair leaves -/

/-- The new rows of a repair. -/
def added (t : ProfileTables Json) (p templateId : Id) : List (StationProfileQueue Json) :=
  newQueues p (maxSort (t.queuesOf p) + 1) (missingSteps (t.queuesOf p) (t.findSteps templateId))

def repairedQueues (t : ProfileTables Json) (p templateId : Id) : List (StationProfileQueue Json) :=
  t.profileQueues.map (rewriteRow p (t.findSteps templateId)) ++ added t p templateId

theorem added_pairwise (h : Repairable t p templateId) : (added t p templateId).Pairwise fun d d' =>
    d.queueId ≠ d'.queueId ∧ d.sortOrder ≠ d'.sortOrder :=
  newQueues_pairwise (missingSteps_pairwise h.different)

/-- The new rows are for queues that had none. -/
theorem unique_repaired (h : Repairable t p templateId) : Unique (repairedQueues t p templateId) := by
  have hold : (t.profileQueues.map (rewriteRow p (t.findSteps templateId))).map (·.key) =
      t.profileQueues.map (·.key) := by
    rw [List.map_map]
    exact List.map_congr_left fun r _ => Prod.ext rewriteRow_key.1 rewriteRow_key.2.1
  unfold Unique repairedQueues
  rw [List.map_append, hold]
  refine List.nodup_append.mpr ⟨h.unique, List.pairwise_map.mpr ((added_pairwise h).imp
    fun hne hk => hne.1 (Prod.mk.inj hk).2), fun k hk k' hk' he => ?_⟩
  obtain ⟨r, hr, rfl⟩ := List.mem_map.mp hk
  obtain ⟨d, hd, rfl⟩ := List.mem_map.mp hk'
  obtain ⟨hp, -, m, hm, hq⟩ := mem_newQueues hd
  obtain ⟨hrp, hrq⟩ := Prod.mk.inj he
  exact (mem_missingSteps.mp hm).1 r (List.mem_filter.mpr ⟨hr, by simp [hrp, hp]⟩) (hrq.trans hq)

theorem sync_eq (h : Repairable t p templateId) : syncMissingJourneyProfileQueues
    (t.write (rewriteAll p (t.findSteps templateId) t.profileQueues)) p templateId =
      .ok (t.write (repairedQueues t p templateId)) := by
  obtain ⟨branchId, hp, -⟩ := h.ofBranch
  rw [rewriteAll_eq]
  unfold syncMissingJourneyProfileQueues
  rw [stationProfiles_write, hp]
  dsimp only
  rw [queuesOf_rewrite, missingSteps_rewrite, maxSort_rewrite, findSteps_write]
  split
  · rename_i hnone
    unfold repairedQueues added
    rw [hnone]
    simp [newQueues]
  · refine (if_pos (h.validateQueues hp)).trans ?_
    exact congrArg (fun rows => Except.ok (t.write rows)) (createMany_eq (unique_repaired h))

theorem served_repaired (h : Repairable t p templateId) (hs : step ∈ t.findSteps templateId) :
    Served p (repairedQueues t p templateId) step := by
  intro queueId hq
  by_cases hr : ∃ r ∈ t.profileQueues, r.stationProfileId = p ∧ r.queueId = queueId
  · obtain ⟨r, hr, hrp, rfl⟩ := hr
    obtain ⟨hv, hc⟩ := rewriteRow_of_step h.different hs hrp hq
    refine ⟨_, List.mem_append_left _ (List.mem_map_of_mem hr), rewriteRow_key.1.trans hrp,
      rewriteRow_key.2.1, hv, fun cap hcap => ?_⟩
    rw [hc]
    exact includes_ofTexts hcap
  · have hm : (queueId, step.stepRole) ∈ missingSteps (t.queuesOf p) (t.findSteps templateId) := by
      refine mem_missingSteps.mpr ⟨fun r hr' hrq => hr ?_, step, hs, hq, rfl⟩
      obtain ⟨hr', hrp⟩ := List.mem_filter.mp hr'
      exact ⟨r, hr', eq_of_beq hrp, hrq⟩
    obtain ⟨d, hd, hdq, hv, hc⟩ := exists_newQueue (p := p) (n := maxSort (t.queuesOf p) + 1) hm
    refine ⟨d, List.mem_append_right _ hd, (mem_newQueues hd).1, hdq, hv, fun cap hcap => ?_⟩
    rw [hc]
    exact includes_ofTexts hcap

theorem elsewhere_repaired : (repairedQueues t p templateId).filter
    (elsewhere p (t.findSteps templateId)) =
      t.profileQueues.filter (elsewhere p (t.findSteps templateId)) := by
  have hkey : ∀ r : StationProfileQueue Json, elsewhere p (t.findSteps templateId)
      (rewriteRow p (t.findSteps templateId) r) = elsewhere p (t.findSteps templateId) r := fun r => by
    rw [elsewhere, rewriteRow_key.1, rewriteRow_key.2.1, elsewhere]
  have hnone : (added t p templateId).filter (elsewhere p (t.findSteps templateId)) = [] := by
    refine List.filter_eq_nil_iff.mpr fun d hd he => ?_
    obtain ⟨hdp, -, m, hm, hdm⟩ := mem_newQueues hd
    obtain ⟨-, step, hs, hq, -⟩ := mem_missingSteps.mp hm
    have hany : (t.findSteps templateId).any (·.queueId == some d.queueId) = true :=
      List.any_eq_true.mpr ⟨step, hs, by rw [hq, hdm, beq_self_eq_true]⟩
    simp [elsewhere, hdp, hany] at he
  unfold repairedQueues
  rw [List.filter_append, filter_rewriteRow hkey, hnone, List.append_nil]
  exact (List.map_congr_left fun r hr =>
    rewriteRow_elsewhere (List.mem_filter.mp hr).2).trans (List.map_id _)

/-- The places stay different. -/
theorem sortOrders_repaired (h : Repairable t p templateId)
    (hn : ((t.queuesOf p).map (·.sortOrder)).Nodup) :
    (((t.write (repairedQueues t p templateId)).queuesOf p).map (·.sortOrder)).Nodup := by
  have hold : (t.profileQueues.map (rewriteRow p (t.findSteps templateId))).filter
      (·.stationProfileId == p) = (t.queuesOf p).map (rewriteRow p (t.findSteps templateId)) :=
    filter_rewriteRow fun r => by rw [rewriteRow_key.1]
  have hnew : (added t p templateId).filter (·.stationProfileId == p) = added t p templateId :=
    List.filter_eq_self.mpr fun d hd => by simp [(mem_newQueues hd).1]
  change (((t.profileQueues.map _ ++ added t p templateId).filter _).map _).Nodup
  rw [List.filter_append, hold, hnew, List.map_append, sortOrder_rewrite]
  refine List.nodup_append.mpr ⟨hn, ?_, fun x hx y hy => ?_⟩
  · exact List.pairwise_map.mpr ((added_pairwise h).imp fun hne => hne.2)
  · obtain ⟨r, hr, rfl⟩ := List.mem_map.mp hx
    obtain ⟨d, hd, rfl⟩ := List.mem_map.mp hy
    have hlt := (mem_newQueues hd).2.1
    have hle := le_maxSort hr
    omega

theorem repair_of_served (hu : Unique t.profileQueues)
    (h : ∀ step ∈ t.findSteps templateId, Served p t.profileQueues step) :
    repairJourneyProfileQueues t p templateId = (t, .ok false) := by
  have hneeds : ∀ step ∈ t.findSteps templateId, ¬ needsRepair (t.queuesOf p) step = true :=
    fun step hs => Bool.eq_false_iff.mp ((served_iff hu).mpr (h step hs))
  unfold repairJourneyProfileQueues
  dsimp only
  rw [List.any_eq_false.mpr hneeds,
    List.any_eq_false.mpr fun step hs hm => hneeds step hs (needsRepair_of_missing hm)]
  rfl

/-- **A repair converges**: it leaves the queue of every step with one row, not view-only and with the
capabilities the step needs, the rows of other queues as they were, a profile that was so before
untouched, and distinct places distinct; the next repair finds nothing to do. -/
theorem repair_converges (h : Repairable t p templateId) : ∃ b rows,
    repairJourneyProfileQueues t p templateId = (t.write rows, .ok b) ∧
    (Unique rows ∧ ∀ step ∈ t.findSteps templateId, Served p rows step) ∧
    rows.filter (elsewhere p (t.findSteps templateId)) =
      t.profileQueues.filter (elsewhere p (t.findSteps templateId)) ∧
    ((∀ step ∈ t.findSteps templateId, Served p t.profileQueues step) → rows = t.profileQueues) ∧
    (((t.queuesOf p).map (·.sortOrder)).Nodup →
      (((t.write rows).queuesOf p).map (·.sortOrder)).Nodup) ∧
    repairJourneyProfileQueues (t.write rows) p templateId = (t.write rows, .ok false) := by
  by_cases hs : ∀ step ∈ t.findSteps templateId, Served p t.profileQueues step
  · have hnone := repair_of_served h.unique hs
    exact ⟨false, t.profileQueues, hnone, ⟨h.unique, hs⟩, rfl, fun _ => rfl, fun hn => hn, hnone⟩
  · have hu := unique_repaired h
    have hserved : ∀ step ∈ t.findSteps templateId, Served p (repairedQueues t p templateId) step :=
      fun step hm => served_repaired h hm
    refine ⟨true, repairedQueues t p templateId, ?_, ⟨hu, hserved⟩, elsewhere_repaired,
      fun hx => absurd hx hs, sortOrders_repaired h,
      repair_of_served (t := t.write (repairedQueues t p templateId)) hu hserved⟩
    have hneeds : ¬ (t.findSteps templateId).any (needsRepair (t.queuesOf p)) = false := fun hx =>
      hs fun step hm => (served_iff h.unique).mp (Bool.eq_false_iff.mpr (List.any_eq_false.mp hx step hm))
    unfold repairJourneyProfileQueues
    dsimp only
    rw [Bool.not_eq_false] at hneeds
    rw [hneeds, sync_eq h]
    rfl

end

/-! ## A station -/

def intakeStep : BranchFlowStep :=
  { orgId := 1, templateId := 1, stepIndex := 0, deskNumber := "1", serviceId := 1, queueId := some 1 }

def pickupStep : BranchFlowStep :=
  { orgId := 1, templateId := 1, stepIndex := 1, deskNumber := "2", serviceId := 1, queueId := some 2
    stepRole := .pickup }

/-- It sees the queue of the first step only, without capabilities, and another queue. -/
def station : ProfileTables Unit where
  flowSteps := [pickupStep, intakeStep]
  queues := [(1, 1), (2, 1), (9, 1)]
  stationProfiles := [(1, 1)]
  profileQueues := [⟨1, 1, 0, true, .other ()⟩, ⟨1, 9, 1, true, .array [.inr ()]⟩]

theorem station_repairable : Repairable station 1 1 := by
  have hsteps : station.findSteps 1 = [intakeStep, pickupStep] := by decide
  refine ⟨by unfold Unique; decide, by decide, ?_, 1, rfl, ?_⟩
  · rw [hsteps]
    simp [Different, intakeStep, pickupStep]
  · rw [hsteps]
    intro step hs queueId hq
    rcases List.mem_pair.mp hs with rfl | rfl
    · cases hq
      decide
    · cases hq
      decide

theorem repair_converges_station : ∃ b rows,
    repairJourneyProfileQueues station 1 1 = (station.write rows, .ok b) ∧
    repairJourneyProfileQueues (station.write rows) 1 1 = (station.write rows, .ok false) := by
  obtain ⟨b, rows, hb, -, -, -, -, hagain⟩ := repair_converges station_repairable
  exact ⟨b, rows, hb, hagain⟩

end PatronLoyalty.Workbench
