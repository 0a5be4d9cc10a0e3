import TimeCapsule.App.Operations

/-!
# One lane for every device

When two lanes may work on one device, and when not.
-/

namespace TimeCapsule.App

/-! ## Lanes -/

namespace OperationLane

variable {p : Platform} {lane lane' : OperationLane} {backend : BackendClient}
  {backends : List BackendClient} {replaying : Bool}

/-- A lane that is busy was busy before, for the same device. -/
structure Keeps (lane lane' : OperationLane) : Prop where
  key : lane'.key = lane.key
  busy : lane'.isBusy = true → lane.isBusy = true ∧ lane'.device = lane.device ∧
    lane'.resourceKey = lane.resourceKey

theorem Keeps.refl (lane : OperationLane) : Keeps lane lane := ⟨rfl, fun h => ⟨h, rfl, rfl⟩⟩

@[simp] theorem key_observe : (observe replaying lane backend).key = lane.key := by
  rw [observe]
  split <;> rfl

@[simp] theorem device_observe : (observe replaying lane backend).device = lane.device := by
  rw [observe]
  split <;> rfl

@[simp] theorem backend_observe : (observe replaying lane backend).backend = backend := by
  rw [observe]
  split <;> rfl

theorem activeOperation_observe (h : backend.isRunning = true ∨
    backend.pendingConfirmation.isSome = true ∨ replaying = true) :
    (observe replaying lane backend).activeOperation = lane.activeOperation := by
  rw [observe, if_neg]
  obtain h | h | h := h
  · simp [h]
  · simp [Option.isNone_eq_false_iff.mpr h]
  · simp [h]

theorem isBusy_observe : (observe replaying lane backend).isBusy =
    (backend.isRunning || backend.pendingConfirmation.isSome) := by
  rw [isBusy, backend_observe]

theorem resourceKey_congr (hkey : lane'.key = lane.key)
    (hactive : lane'.activeOperation = lane.activeOperation) :
    lane'.resourceKey = lane.resourceKey := by
  rw [resourceKey, resourceKey, hkey, hactive]

/-- A change of the client of a busy lane. -/
theorem keeps_observe (h : lane.isBusy = true) : Keeps lane (observe false lane backend) where
  key := key_observe
  busy hbusy := by
    rw [isBusy_observe, Bool.or_eq_true] at hbusy
    exact ⟨h, device_observe, resourceKey_congr key_observe
      (activeOperation_observe (hbusy.imp_right .inl))⟩

theorem Keeps.trans {lane'' : OperationLane} (h : Keeps lane lane') (h' : Keeps lane' lane'') :
    Keeps lane lane'' where
  key := h'.key.trans h.key
  busy hbusy := by
    obtain ⟨hbusy', hdevice', hresource'⟩ := h'.busy hbusy
    obtain ⟨hbusy'', hdevice, hresource⟩ := h.busy hbusy'
    exact ⟨hbusy'', hdevice'.trans hdevice, hresource'.trans hresource⟩

/-- A lane that is free in the end. -/
theorem keeps_of_free (hkey : lane'.key = lane.key) (h : lane'.isBusy = false) : Keeps lane lane' :=
  ⟨hkey, fun hbusy => absurd (h.symm.trans hbusy) (by simp)⟩

theorem keeps_reject (message : String) : Keeps lane (lane.reject message) :=
  ⟨rfl, fun h => ⟨h, rfl, rfl⟩⟩

theorem keeps_cancel : Keeps lane lane.cancel where
  key := rfl
  busy hbusy := by
    refine ⟨?_, rfl, rfl⟩
    rw [isBusy, cancel, BackendClient.cancel] at hbusy
    split at hbusy <;> exact hbusy

theorem keeps_confirmPending : Keeps lane lane.confirmPending := by
  rw [confirmPending]
  split
  · exact .refl lane
  next hpending =>
    cases hconfirmation : lane.backend.pendingConfirmation with
    | none => simp [hconfirmation] at hpending
    | some confirmation =>
      have hbusy : lane.isBusy = true := by simp [isBusy, hconfirmation]
      cases hrunning : lane.backend.isRunning with
      | true =>
        simp only [BackendClient.confirmPending, hconfirmation, hrunning, List.foldl_nil]
        exact .refl lane
      | false =>
        -- The operation stays active while its confirmation is replayed.
        simp only [BackendClient.confirmPending, hconfirmation, hrunning, BackendClient.run,
          List.foldl_cons, List.foldl_nil, Bool.false_eq_true, if_false]
        refine ⟨by simp, fun _ => ⟨hbusy, by simp, resourceKey_congr (by simp) ?_⟩⟩
        rw [activeOperation_observe (.inr (.inr rfl)), activeOperation_observe (.inr (.inr rfl)),
          activeOperation_observe (.inr (.inr rfl))]

theorem keeps_cancelPendingConfirmation : Keeps lane lane.cancelPendingConfirmation := by
  rw [cancelPendingConfirmation, follow]
  cases hconfirmation : lane.backend.pendingConfirmation with
  | none =>
    simp only [BackendClient.cancelPendingConfirmation, hconfirmation, List.foldl_nil]
    exact .refl lane
  | some confirmation =>
    cases hrunning : lane.backend.isRunning with
    | true =>
      simp only [BackendClient.cancelPendingConfirmation, hconfirmation, hrunning, List.foldl_nil]
      exact .refl lane
    | false =>
      simp only [BackendClient.cancelPendingConfirmation, hconfirmation, hrunning, List.foldl_cons,
        List.foldl_nil]
      exact keeps_observe (by simp [isBusy, hconfirmation])

theorem keeps_appendEvent (event : BackendEvent) (h : lane.backend.isRunning = true) :
    Keeps lane (lane.follow (lane.backend.appendEvent event)) := by
  have hbusy : lane.isBusy = true := by simp [isBusy, h]
  rw [follow, BackendClient.appendEvent]
  split <;> exact keeps_observe hbusy

theorem keeps_finishRun (exitCode : Int) (h : lane.backend.isRunning = true) :
    Keeps lane (lane.follow (lane.backend.finishRun exitCode)) := by
  have hbusy : lane.isBusy = true := by simp [isBusy, h]
  rw [follow, BackendClient.finishRun, List.foldl_cons, List.foldl_cons, List.foldl_nil]
  cases hpending : lane.backend.pendingConfirmation with
  | none => exact keeps_of_free (by simp) (by simp [isBusy])
  | some confirmation =>
    refine (keeps_observe hbusy).trans (keeps_observe ?_)
    simp [isBusy]

/-- Clearing a lane does not make it forget a device that it still works on. -/
def Releasable (lane : OperationLane) : Prop :=
  lane.backend.isRunning = true → lane.key.deviceProfileID = none →
    lane.activeOperation.bind (·.profileID) = none

theorem keeps_clear (h : lane.Releasable) : Keeps lane lane.clear := by
  cases hrunning : lane.backend.isRunning with
  | false =>
    refine keeps_of_free ?_ ?_ <;>
      simp [clear, follow, BackendClient.clear, hrunning, isBusy]
  | true =>
    have hbusy : lane.isBusy = true := by simp [isBusy, hrunning]
    have hclear : lane.clear = { lane with rejectedOperationMessage := none, activeOperation := none } := by
      simp [clear, follow, BackendClient.clear, hrunning]
    rw [hclear]
    refine ⟨rfl, fun _ => ⟨hbusy, rfl, ?_⟩⟩
    rw [resourceKey, resourceKey]
    cases hkey : lane.key.deviceProfileID with
    | some profileID => simp
    | none => simp [h hrunning hkey]

/-- A run that a free lane starts is for the device of the run. -/
theorem run_free (operation : String) (params : Lib.JsonObject)
    (context : Option DeviceRuntimeContext) (activeDeviceID : Option ProfileID)
    (password : Option String) (id : String) (h : lane.isBusy = false) :
    (lane.run p operation params context activeDeviceID password id).1.key = lane.key ∧
    (lane.run p operation params context activeDeviceID password id).1.device =
      activeDeviceID.or lane.key.deviceProfileID ∧
    (lane.run p operation params context activeDeviceID password id).1.resourceKey =
      lane.key.deviceProfileID.or activeDeviceID := by
  have hrunning : lane.backend.isRunning = false := by
    rw [isBusy, Bool.or_eq_false_iff] at h
    exact h.1
  rw [run, if_neg (by simp [h])]
  simp only [follow, BackendClient.run, hrunning, Bool.false_eq_true, if_false, List.foldl_cons,
    List.foldl_nil]
  refine ⟨by simp, by simp, ?_⟩
  rw [resourceKey, key_observe, key_observe, activeOperation_observe (.inl rfl),
    activeOperation_observe (.inl rfl)]
  rfl

theorem run_busy {operation : String} {params : Lib.JsonObject} {context : Option DeviceRuntimeContext}
    {activeDeviceID : Option ProfileID} {password : Option String} {id : String}
    (h : lane.isBusy = true) :
    Keeps lane (lane.run p operation params context activeDeviceID password id).1 := by
  rw [run, if_pos h]
  exact ⟨rfl, fun hbusy => ⟨hbusy, rfl, rfl⟩⟩

end OperationLane

/-! ## The coordinator -/

namespace OperationCoordinator

variable {p : Platform} {before : String → String → Bool} {c c' : OperationCoordinator}

structure Inv (c : OperationCoordinator) : Prop where
  keys : (c.lanes.map (·.key)).Nodup
  device : ∀ lane ∈ c.lanes, lane.isBusy = true → lane.device = lane.resourceKey
  one : ∀ lane ∈ c.lanes, ∀ lane' ∈ c.lanes, lane.isBusy = true → lane'.isBusy = true →
    ∀ profileID, lane.device = some profileID → lane'.device = some profileID → lane.key = lane'.key

theorem Inv.map {f : OperationLane → OperationLane} (h : c.Inv)
    (hf : ∀ lane ∈ c.lanes, OperationLane.Keeps lane (f lane)) : Inv ⟨c.lanes.map f⟩ := by
  constructor
  case keys =>
    have hkeys : (c.lanes.map f).map (·.key) = c.lanes.map (·.key) := by
      rw [List.map_map]
      exact List.map_congr_left fun lane hlane => (hf lane hlane).key
    rw [hkeys]
    exact h.keys
  case device =>
    simp only [List.mem_map]
    rintro _ ⟨lane, hlane, rfl⟩ hbusy
    obtain ⟨hbusy', hdevice, hresource⟩ := (hf lane hlane).busy hbusy
    rw [hdevice, hresource]
    exact h.device lane hlane hbusy'
  case one =>
    simp only [List.mem_map]
    rintro _ ⟨left, hleft, rfl⟩ _ ⟨right, hright, rfl⟩ hbusy hbusy' profileID hdevice hdevice'
    obtain ⟨hwas, hsame, -⟩ := (hf left hleft).busy hbusy
    obtain ⟨hwas', hsame', -⟩ := (hf right hright).busy hbusy'
    rw [(hf left hleft).key, (hf right hright).key]
    exact h.one left hleft right hright hwas hwas' profileID (hsame ▸ hdevice) (hsame' ▸ hdevice')

theorem Inv.modify {key : OperationLaneKey} {f : OperationLane → OperationLane} (h : c.Inv)
    (hf : ∀ lane ∈ c.lanes, lane.key = key → OperationLane.Keeps lane (f lane)) :
    (c.modify key f).Inv := by
  refine h.map fun lane hlane => ?_
  split
  next hkey => exact hf lane hlane hkey
  next => exact .refl lane

/-- A lane starts to work on a device that no other lane works on. -/
structure Starts (c : OperationCoordinator) (lane lane' : OperationLane) : Prop where
  key : lane'.key = lane.key
  device : lane'.device = lane'.resourceKey
  alone : ∀ profileID, lane'.device = some profileID → ∀ other ∈ c.lanes, other.key ≠ lane.key →
    other.device = some profileID → other.isBusy = false

theorem Inv.start {key : OperationLaneKey} {f : OperationLane → OperationLane} (h : c.Inv)
    (hf : ∀ lane ∈ c.lanes, lane.key = key → OperationLane.Keeps lane (f lane) ∨ c.Starts lane (f lane)) :
    (c.modify key f).Inv := by
  have hkey : ∀ lane ∈ c.lanes, (if lane.key = key then f lane else lane).key = lane.key := by
    intro lane hlane
    split
    next hkey => exact (hf lane hlane hkey).elim (·.key) (·.key)
    next => rfl
  -- A busy lane that has started has no other busy lane beside it.
  have hapart : ∀ left ∈ c.lanes, left.key = key → ∀ right ∈ c.lanes, right.key ≠ key →
      (f left).isBusy = true → right.isBusy = true → ∀ profileID, (f left).device = some profileID →
      right.device = some profileID → False := by
    intro left hleft hleftkey right hright hrightkey hbusy hbusy' profileID hdevice hdevice'
    rcases hf left hleft hleftkey with hkeeps | hstarts
    · obtain ⟨hwas, hsame, -⟩ := hkeeps.busy hbusy
      have hone := h.one left hleft right hright hwas hbusy' profileID (hsame ▸ hdevice) hdevice'
      exact hrightkey (hone ▸ hleftkey)
    · have hfree := hstarts.alone profileID hdevice right hright (hleftkey ▸ hrightkey) hdevice'
      exact absurd (hfree.symm.trans hbusy') (by simp)
  constructor
  case keys =>
    have hkeys : (c.modify key f).lanes.map (·.key) = c.lanes.map (·.key) := by
      rw [OperationCoordinator.modify, List.map_map]
      exact List.map_congr_left hkey
    rw [hkeys]
    exact h.keys
  case device =>
    simp only [OperationCoordinator.modify, List.mem_map]
    rintro _ ⟨lane, hlane, rfl⟩
    split
    next hlanekey =>
      intro hbusy
      rcases hf lane hlane hlanekey with hkeeps | hstarts
      · obtain ⟨hwas, hsame, hresource⟩ := hkeeps.busy hbusy
        rw [hsame, hresource]
        exact h.device lane hlane hwas
      · exact hstarts.device
    next => exact h.device lane hlane
  case one =>
    simp only [OperationCoordinator.modify, List.mem_map]
    rintro _ ⟨left, hleft, rfl⟩ _ ⟨right, hright, rfl⟩
    rw [hkey left hleft, hkey right hright]
    by_cases hleftkey : left.key = key <;> by_cases hrightkey : right.key = key
    · exact fun _ _ _ _ _ => hleftkey.trans hrightkey.symm
    · rw [if_pos hleftkey, if_neg hrightkey]
      intro hbusy hbusy' profileID hdevice hdevice'
      exact (hapart left hleft hleftkey right hright hrightkey hbusy hbusy' profileID hdevice
        hdevice').elim
    · rw [if_neg hleftkey, if_pos hrightkey]
      intro hbusy hbusy' profileID hdevice hdevice'
      exact (hapart right hright hrightkey left hleft hleftkey hbusy' hbusy profileID hdevice'
        hdevice).elim
    · rw [if_neg hleftkey, if_neg hrightkey]
      exact h.one left hleft right hright

theorem Inv.act {lane : Option OperationLane} {f : OperationLane → OperationLane} (h : c.Inv)
    (hf : ∀ lane, OperationLane.Keeps lane (f lane)) : (c.act lane f).Inv := by
  cases lane with
  | none => exact h
  | some lane => exact h.modify fun lane _ _ => hf lane

/-- A lane that is made is free. -/
theorem Inv.lane (h : c.Inv) (key : OperationLaneKey) : (c.lane key).Inv := by
  rw [OperationCoordinator.lane]
  cases hfind : c.find key with
  | some lane => exact h
  | none =>
    have hfree : (OperationLane.new key).isBusy = false := rfl
    have hnew : ∀ lane ∈ c.lanes ++ [OperationLane.new key], lane.isBusy = true → lane ∈ c.lanes := by
      intro lane hlane hbusy
      rcases List.mem_append.mp hlane with hold | hnew
      · exact hold
      · rw [List.mem_singleton.mp hnew, hfree] at hbusy
        exact absurd hbusy (by simp)
    constructor
    case keys =>
      rw [List.map_append, List.nodup_append]
      refine ⟨h.keys, by simp, ?_⟩
      simp only [List.mem_map]
      rintro _ ⟨lane, hlane, rfl⟩ _ ⟨_, hkey, rfl⟩ heq
      have hnone := List.find?_eq_none.mp hfind lane hlane
      rw [List.mem_singleton.mp hkey] at heq
      have hsame : lane.key = key := heq
      exact hnone (by simpa using hsame)
    case device => exact fun lane hlane hbusy => h.device lane (hnew lane hlane hbusy) hbusy
    case one =>
      intro left hleft right hright hbusy hbusy'
      exact h.one left (hnew left hleft hbusy) right (hnew right hright hbusy') hbusy hbusy'

/-- The order of the lanes does not matter to whether there is a conflict. -/
theorem conflicts_eq {laneKey : OperationLaneKey} {activeDeviceID : Option ProfileID} :
    c.conflicts before laneKey activeDeviceID =
      (laneKey.deviceProfileID.or activeDeviceID).any fun profileID => c.lanes.any fun lane =>
        lane.key ≠ laneKey && lane.resourceKey = some profileID && lane.isBusy := by
  rw [conflicts]
  cases laneKey.deviceProfileID.or activeDeviceID with
  | none => rfl
  | some profileID =>
    rw [Option.any_some, Bool.eq_iff_iff]
    simp only [conflictingLane, allLanes, List.find?_isSome, List.any_eq_true, List.mem_mergeSort]

/-- A device without a conflict has no other busy lane. -/
theorem Inv.not_busy_of_conflicts (h : c.Inv) {laneKey : OperationLaneKey} {activeDeviceID : Option ProfileID}
    (hconflicts : c.conflicts before laneKey activeDeviceID = false) {profileID : ProfileID}
    (hprofile : laneKey.deviceProfileID.or activeDeviceID = some profileID) {lane : OperationLane}
    (hlane : lane ∈ c.lanes) (hkey : lane.key ≠ laneKey) (hdevice : lane.device = some profileID) :
    lane.isBusy = false := by
  rw [conflicts_eq, hprofile, Option.any_some, List.any_eq_false] at hconflicts
  have hnone := hconflicts lane hlane
  cases hbusy : lane.isBusy with
  | false => rfl
  | true =>
    have hresource := h.device lane hlane hbusy
    rw [hdevice] at hresource
    simp [hkey, ← hresource, hbusy] at hnone

/-- What the coordinator has to be spared: a run in the lane of a device for another device, and the
clearing of a lane that is running an operation for a device which only that operation names. -/
def Careful (c : OperationCoordinator) : Event → Prop
  | .run operation _ _ activeDeviceID _ laneKey _ =>
      ∀ profileID ∈ activeDeviceID, ∀ profileID' ∈
        (resolvedLaneKey operation activeDeviceID laneKey).deviceProfileID, profileID = profileID'
  | .clear => ∀ lane ∈ c.lanes, lane.Releasable
  | .clearLane laneKey => ∀ lane ∈ c.lanes, lane.key = laneKey → lane.Releasable
  | _ => True

theorem Inv.run {operation : String} {params : Lib.JsonObject} {context : Option DeviceRuntimeContext}
    {activeDeviceID : Option ProfileID} {password : Option String} {laneKey : Option OperationLaneKey}
    {id : String} (h : c.Inv) (hcareful : ∀ profileID ∈ activeDeviceID, ∀ profileID' ∈
      (resolvedLaneKey operation activeDeviceID laneKey).deviceProfileID, profileID = profileID') :
    (c.run p before operation params context activeDeviceID password laneKey id).Inv := by
  rw [OperationCoordinator.run]
  generalize resolvedLaneKey operation activeDeviceID laneKey = key at hcareful
  have hmade := h.lane key
  generalize c.lane key = c' at hmade
  cases hconflicts : c'.conflicts before key activeDeviceID with
  | true => exact hmade.modify fun lane _ _ => OperationLane.keeps_reject alreadyRunning
  | false =>
    have hdevice : activeDeviceID.or key.deviceProfileID = key.deviceProfileID.or activeDeviceID := by
      cases hactive : activeDeviceID with
      | none => simp
      | some profileID =>
        cases hkey : key.deviceProfileID with
        | none => simp
        | some profileID' => simp [hcareful profileID hactive profileID' hkey]
    apply hmade.start
    intro lane hlane hkey
    cases hbusy : lane.isBusy with
    | true => exact .inl (OperationLane.run_busy hbusy)
    | false =>
      obtain ⟨hsamekey, hgiven, hresource⟩ := OperationLane.run_free (p := p) operation params
        context activeDeviceID password id hbusy
      rw [hkey] at hgiven hresource
      refine .inr ⟨hsamekey, hgiven.trans (hdevice.trans hresource.symm), ?_⟩
      intro profileID hprofile other hother hotherkey
      rw [hgiven, hdevice] at hprofile
      exact hmade.not_busy_of_conflicts hconflicts hprofile hother (hkey ▸ hotherkey)

theorem Inv.find_key {key : OperationLaneKey} {lane other : OperationLane} (h : c.Inv)
    (hfind : c.find key = some lane) (hother : other ∈ c.lanes) (hkey : other.key = key) :
    other = lane := by
  have hlane : lane.key = key := by simpa using List.find?_some hfind
  exact List.inj_on_of_nodup_map h.keys hother (List.mem_of_find?_eq_some hfind)
    (hkey.trans hlane.symm)

/-- One event. -/
theorem Inv.after (h : c.Inv) {event : Event} (henabled : c.Enabled event)
    (hcareful : c.Careful event) : (c.after p before event).Inv := by
  cases event with
  | run operation params context activeDeviceID password laneKey id => exact h.run hcareful
  | confirmPending => exact h.act fun _ => OperationLane.keeps_confirmPending
  | cancelPendingConfirmation => exact h.act fun _ => OperationLane.keeps_cancelPendingConfirmation
  | cancel => exact h.act fun _ => OperationLane.keeps_cancel
  | cancelProfile profileID => exact h.act fun _ => OperationLane.keeps_cancel
  | cancelLane laneKey => exact (h.lane laneKey).modify fun _ _ _ => OperationLane.keeps_cancel
  | clear => exact h.map fun lane hlane => OperationLane.keeps_clear (hcareful lane hlane)
  | clearLane laneKey =>
    refine (h.lane laneKey).modify fun lane hlane hkey => OperationLane.keeps_clear ?_
    rw [OperationCoordinator.lane] at hlane
    split at hlane
    · exact hcareful lane hlane hkey
    · rcases List.mem_append.mp hlane with hold | hnew
      · exact hcareful lane hold hkey
      · rw [List.mem_singleton.mp hnew]
        intro hrunning
        exact absurd hrunning (by simp [OperationLane.new, BackendClient.idle])
  | helperEvent laneKey event =>
    obtain ⟨lane, hfind, hrunning⟩ := henabled
    refine h.modify fun other hother hkey => ?_
    rw [h.find_key hfind hother hkey]
    exact OperationLane.keeps_appendEvent event hrunning
  | helperFinished laneKey exitCode =>
    obtain ⟨lane, hfind, hrunning⟩ := henabled
    refine h.modify fun other hother hkey => ?_
    rw [h.find_key hfind hother hkey]
    exact OperationLane.keeps_finishRun exitCode hrunning

/-- A step in which an event happens that is allowed. -/
def Step (p : Platform) (before : String → String → Bool)
    (allow : OperationCoordinator → Event → Prop) (c c' : OperationCoordinator) : Prop :=
  ∃ event, c.Enabled event ∧ allow c event ∧ c' = c.after p before event

/-- No device has two lanes that are running something, or about to, for it. -/
def OneLane (c : OperationCoordinator) : Prop :=
  ∀ lane ∈ c.lanes, ∀ lane' ∈ c.lanes, lane.isBusy = true → lane'.isBusy = true →
    ∀ profileID, lane.device = some profileID → lane'.device = some profileID → lane = lane'

theorem inv_initial : initial.Inv where
  keys := by simp [initial]
  device := by simp [initial, OperationLane.isBusy, OperationLane.new, BackendClient.idle]
  one := by simp [initial]

/-- In a run whose events are all careful, no two lanes are ever busy for one device. -/
theorem oneLane_of_careful
    (hrun : Relation.ReflTransGen (Step p before Careful) initial c) : c.OneLane := by
  have hinv : c.Inv := by
    induction hrun with
    | refl => exact inv_initial
    | tail _ hstep ih =>
      obtain ⟨event, henabled, hcareful, rfl⟩ := hstep
      exact ih.after henabled hcareful
  intro lane hlane lane' hlane' hbusy hbusy' profileID hdevice hdevice'
  exact List.inj_on_of_nodup_map hinv.keys hlane hlane'
    (hinv.one lane hlane lane' hlane' hbusy hbusy' profileID hdevice hdevice')

/-- A repair of a folder, for a device. -/
def repair : Event := .run "repair-xattrs" [] none (some "1") none (some (.localPath "/Volumes/Data")) "a"

def checkup : Event := .run "doctor" [] none (some "1") none none "b"

/-- What the coordinator is after some events. -/
def afterAll (events : List Event) : OperationCoordinator :=
  events.foldl (after plainPlatform fun left right => left < right) initial

/-- A lane that is cleared while its helper runs does not keep a second helper from the device. -/
theorem not_oneLane :
    (∃ c, Relation.ReflTransGen (Step plainPlatform (fun left right => left < right)
        fun _ _ => True) initial c ∧ ¬ c.OneLane) := by
  refine ⟨afterAll [repair, .clearLane (.localPath "/Volumes/Data"), checkup], ?_, fun hone => ?_⟩
  · exact ((Relation.ReflTransGen.refl.tail ⟨repair, trivial, trivial, rfl⟩).tail
      ⟨.clearLane (.localPath "/Volumes/Data"), trivial, trivial, rfl⟩).tail
      ⟨checkup, trivial, trivial, rfl⟩
  · have hbusy : ((afterAll [repair, .clearLane (.localPath "/Volumes/Data"), checkup]).lanes.filter
        fun lane => lane.isBusy && lane.device = some "1").map (·.key) =
        [.localPath "/Volumes/Data", .deviceWorkflow "1" .doctor] := by
      simp only [afterAll, List.foldl_cons, List.foldl_nil, after, repair, checkup, run, conflicts_eq]
      decide +kernel
    have hmem (key : OperationLaneKey)
        (hkey : key ∈ [OperationLaneKey.localPath "/Volumes/Data", .deviceWorkflow "1" .doctor]) :
        ∃ lane ∈ (afterAll [repair, .clearLane (.localPath "/Volumes/Data"), checkup]).lanes,
          lane.isBusy = true ∧ lane.device = some "1" ∧ lane.key = key := by
      rw [← hbusy, List.mem_map] at hkey
      obtain ⟨lane, hlane, hkey⟩ := hkey
      rw [List.mem_filter, Bool.and_eq_true, decide_eq_true_eq] at hlane
      exact ⟨lane, hlane.1, hlane.2.1, hlane.2.2, hkey⟩
    obtain ⟨lane, hlane, hrunning, hdevice, hkey⟩ := hmem _ (.head _)
    obtain ⟨lane', hlane', hrunning', hdevice', hkey'⟩ := hmem _ (.tail _ (.head _))
    have hsame := hone lane hlane lane' hlane' hrunning hrunning' "1" hdevice hdevice'
    rw [← hsame, hkey] at hkey'
    exact absurd hkey' (by decide)

/-- The check-up is refused while the repair runs. -/
theorem oneLane_afterAll : (afterAll [repair, checkup]).OneLane := by
  apply oneLane_of_careful
  exact (Relation.ReflTransGen.refl.tail ⟨repair, trivial, by simp [Careful, repair, resolvedLaneKey,
    OperationLaneKey.deviceProfileID], rfl⟩).tail ⟨checkup, trivial, by simp [Careful, checkup,
    resolvedLaneKey, defaultLaneKey, DeviceWorkflowLane.lane, OperationLaneKey.deviceProfileID], rfl⟩

end OperationCoordinator

end TimeCapsule.App
