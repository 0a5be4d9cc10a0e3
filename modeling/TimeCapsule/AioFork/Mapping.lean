import TimeCapsule.AioFork.Progress

/-!
# What is in the mappings

Every helper has one mapping, which requests use one after another.  While a helper works for a request,
nothing else is written to its mapping; so the data that it writes is the data of that request, and what
ends in the buffer of a read is what was read for it.
-/

namespace TimeCapsule.AioFork

open Lib

/-- A request apart from where it is and whether it has completed. -/
def AioForkState.core (st : AioForkState) : AioForkState :=
  { st with place := .idle, completions := 0, result := none, returned := false, freed := false }

/-- A read completes with data. -/
def Result.delivers (cmd : CmdType) : Result → Bool
  | .done ret _ => cmd == .read && decide (0 ≤ ret)
  | .error _ => false

/-- How many bytes a completion announces. -/
def Result.announces (size : Nat) : Result → Prop
  | .done ret _ => ret = size
  | .error _ => False

namespace Share

/-! ## Who uses a mapping -/

/-- The mapping starts with the bytes. -/
def Holds (worker : Worker) (bytes : Bytes) : Prop := worker.map.take bytes.length = bytes

/-- A helper that has a command: its mapping is that of the request. -/
structure Serves (s : Share) (pid : Pid) (job : RwCmd) : Prop where
  alone : (s.workers pid).reply = none
  known : job.req < s.nextReq
  sent : (s.reqs job.req).sentTo = some pid
  cmd : job.cmd = (s.reqs job.req).cmd
  size : job.n = (s.reqs job.req).n
  reads : Holds (s.workers pid) (s.reqs job.req).readBytes ∧
    (s.reqs job.req).readBytes.length ≤ (s.reqs job.req).n
  writes : job.cmd.writes → (s.reqs job.req).original.length = (s.reqs job.req).n →
    Holds (s.workers pid) (s.reqs job.req).original

/-- An answer that has not been read: the bytes that were read are in the mapping. -/
def Answers (worker : Worker) (st : AioForkState) (ret : RwRet) : Prop :=
  st.cmd = .read → 0 ≤ ret.size → ret.size ≤ st.n →
    ret.size = st.readBytes.length ∧ Holds worker st.readBytes

/-- An active request: its helper works for it or has answered. -/
structure Attends (s : Share) (r : ReqId) (pid : Pid) : Prop where
  known : r < s.nextReq
  sent : (s.reqs r).sentTo = some pid
  untouched : (s.reqs r).data = (s.reqs r).original
  works : (∃ job, (s.workers pid).job = some job ∧ job.req = r) ∨
    (s.workers pid).job = none ∧ ∃ ret, (s.workers pid).reply = some ret ∧
      Answers (s.workers pid) (s.reqs r) ret

/-- The buffer of a request and its result go together. -/
structure Delivered (s : Share) (r : ReqId) (result : Result) : Prop where
  known : r < s.nextReq
  delivered : result.delivers (s.reqs r).cmd = true →
    result.announces (s.reqs r).readBytes.length ∧ (s.reqs r).readBytes.length ≤ (s.reqs r).n ∧
    (s.reqs r).data = fill (s.reqs r).readBytes (s.reqs r).original ∧
    ∀ pid job, (s.workers pid).job = some job → job.req ≠ r
  untouched : result.delivers (s.reqs r).cmd = false → (s.reqs r).data = (s.reqs r).original

/-- A request that has been done with. -/
structure Fits (s : Share) (hand : Option ReqId) (r : ReqId) (result : Result) : Prop
    extends s.Delivered r result where
  ended : s.place r = .idle ∧ hand ≠ some r

/-- A request that no helper has seen. -/
structure Unsent (s : Share) (r : ReqId) : Prop where
  known : r < s.nextReq
  sent : (s.reqs r).sentTo = none
  unread : (s.reqs r).readBytes = []
  untouched : (s.reqs r).data = (s.reqs r).original

/-- A helper has neither a command nor an answer. -/
def Free (s : Share) (pid : Pid) : Prop := (s.workers pid).job = none ∧ (s.workers pid).reply = none

/-- The request in hand is neither attended to nor done with. -/
structure Mapped (hand : Option ReqId) (s : Share) : Prop where
  free : ∀ child ∈ s.children, child.busy = false → s.Free child.pid
  unborn : ∀ pid, s.nextPid ≤ pid → (s.workers pid).job = none
  serves : ∀ pid job, (s.workers pid).job = some job → s.Serves pid job
  attends : ∀ r pid, s.place r = .active pid → hand ≠ some r → s.Attends r pid
  unsent : ∀ r, s.place r = .queued → s.Unsent r
  promised : ∀ r result notify, Frame.complete r result notify ∈ s.stack → s.Fits hand r result
  results : ∀ r result, (s.reqs r).result = some result → s.Fits hand r result
  written : ∀ r bytes, (r, bytes) ∈ s.written → r < s.nextReq ∧
    ((s.reqs r).original.length = (s.reqs r).n → bytes = (s.reqs r).original)

section Keep

variable {s s' : Share} {r r' : ReqId} {pid : Pid} {child : AioChild} {hand hand' : Option ReqId}
  {luck : Luck} {result : Result}

theorem core_fields {st st' : AioForkState} (h : st'.core = st.core) :
    st'.cmd = st.cmd ∧ st'.n = st.n ∧ st'.data = st.data ∧ st'.original = st.original ∧
    st'.readBytes = st.readBytes ∧ st'.sentTo = st.sentTo := by
  simp only [AioForkState.core, AioForkState.mk.injEq] at h
  grind

theorem Serves.keep {job : RwCmd} (h : s.Serves pid job)
    (hcore : (s'.reqs job.req).core = (s.reqs job.req).core)
    (hworker : s'.workers pid = s.workers pid) (hnext : s.nextReq ≤ s'.nextReq) :
    s'.Serves pid job := by
  have hfields := core_fields hcore
  have hknown := Nat.lt_of_lt_of_le h.known hnext
  constructor <;> cases h <;> grind

theorem Attends.keep (h : s.Attends r pid) (hcore : (s'.reqs r).core = (s.reqs r).core)
    (hworker : s'.workers pid = s.workers pid) (hnext : s.nextReq ≤ s'.nextReq) :
    s'.Attends r pid := by
  have hfields := core_fields hcore
  have hknown := Nat.lt_of_lt_of_le h.known hnext
  constructor <;> cases h <;> grind [Answers]

theorem Unsent.keep (h : s.Unsent r) (hcore : (s'.reqs r).core = (s.reqs r).core)
    (hnext : s.nextReq ≤ s'.nextReq) : s'.Unsent r := by
  have hfields := core_fields hcore
  have hknown := Nat.lt_of_lt_of_le h.known hnext
  constructor <;> cases h <;> grind

theorem Delivered.keep (h : s.Delivered r result) (hcore : (s'.reqs r).core = (s.reqs r).core)
    (hjobs : ∀ pid job, (s'.workers pid).job = some job → job.req = r →
      ∃ pid', (s.workers pid').job = some job)
    (hnext : s.nextReq ≤ s'.nextReq) : s'.Delivered r result := by
  obtain ⟨hcmd, hn, hdata, horiginal, hread, -⟩ := core_fields hcore
  refine ⟨Nat.lt_of_lt_of_le h.known hnext, ?_, ?_⟩
  · rw [hcmd, hn, hdata, horiginal, hread]
    intro hdelivers
    obtain ⟨hannounces, hsize, hfilled, hnone⟩ := h.delivered hdelivers
    refine ⟨hannounces, hsize, hfilled, fun pid job hjob hreq => ?_⟩
    obtain ⟨pid', hjob'⟩ := hjobs pid job hjob hreq
    exact hnone pid' job hjob' hreq
  · rw [hcmd, hdata, horiginal]
    exact h.untouched

theorem Fits.keep (h : s.Fits hand r result) (hcore : (s'.reqs r).core = (s.reqs r).core)
    (hjobs : ∀ pid job, (s'.workers pid).job = some job → job.req = r →
      ∃ pid', (s.workers pid').job = some job)
    (hnext : s.nextReq ≤ s'.nextReq) (hover : s'.place r = .idle ∧ hand' ≠ some r) :
    s'.Fits hand' r result :=
  ⟨h.toDelivered.keep hcore hjobs hnext, hover⟩

/-- What the invariant says of one request but for its place. -/
structure SameData (s s' : Share) : Prop where
  core : ∀ r, (s'.reqs r).core = (s.reqs r).core
  workers : s'.workers = s.workers
  nextReq : s'.nextReq = s.nextReq

theorem Delivered.same (h : s.Delivered r result) (hsame : SameData s s') : s'.Delivered r result :=
  h.keep (hsame.core r) (fun pid _ hjob _ => ⟨pid, hsame.workers ▸ hjob⟩)
    (Nat.le_of_eq hsame.nextReq.symm)

/-- A change of places, helpers and the stack. -/
theorem Mapped.keep (h : s.Mapped hand) (hsame : SameData s s')
    (hpid : s'.nextPid = s.nextPid) (hwritten : s'.written = s.written)
    (hfree : ∀ child ∈ s'.children, child.busy = false → s.Free child.pid)
    (hactive : ∀ r pid, s'.place r = .active pid → hand' ≠ some r →
      s.place r = .active pid ∧ hand ≠ some r)
    (hunsent : ∀ r, s'.place r = .queued → s.place r = .queued)
    (hover : ∀ r, s.place r = .idle → hand ≠ some r → s'.place r = .idle ∧ hand' ≠ some r)
    (hstack : ∀ r result notify, Frame.complete r result notify ∈ s'.stack →
      Frame.complete r result notify ∈ s.stack ∨ s'.Fits hand' r result)
    (hresults : ∀ r result, (s'.reqs r).result = some result →
      (s.reqs r).result = some result ∨ s'.Fits hand' r result) : s'.Mapped hand' where
  free child hchild hbusy := by
    rw [Free, hsame.workers]
    exact hfree child hchild hbusy
  unborn pid hle := by
    rw [hsame.workers]
    exact h.unborn pid (hpid ▸ hle)
  serves pid job hjob := (h.serves pid job (hsame.workers ▸ hjob)).keep (hsame.core _)
    (congrFun hsame.workers pid) (Nat.le_of_eq hsame.nextReq.symm)
  attends r pid hplace hhand := by
    obtain ⟨hplace', hhand'⟩ := hactive r pid hplace hhand
    exact (h.attends r pid hplace' hhand').keep (hsame.core r) (congrFun hsame.workers pid)
      (Nat.le_of_eq hsame.nextReq.symm)
  unsent r hr := (h.unsent r (hunsent r hr)).keep (hsame.core r) (Nat.le_of_eq hsame.nextReq.symm)
  promised r result notify hmem := by
    rcases hstack r result notify hmem with hold | hnew
    · have hfits := h.promised r result notify hold
      exact ⟨hfits.toDelivered.same hsame, hover r hfits.ended.1 hfits.ended.2⟩
    · exact hnew
  results r result hresult := by
    rcases hresults r result hresult with hold | hnew
    · have hfits := h.results r result hold
      exact ⟨hfits.toDelivered.same hsame, hover r hfits.ended.1 hfits.ended.2⟩
    · exact hnew
  written r bytes hmem := by
    have hfields := core_fields (hsame.core r)
    have hnext := hsame.nextReq
    have := h.written r bytes (hwritten ▸ hmem)
    grind

/-! ## Helpers and requests come and go -/

theorem core_setReq {f : AioForkState → AioForkState} (hf : ∀ st, (f st).core = st.core) :
    SameData s (s.setReq r f) where
  core r' := by
    rw [reqs_setReq]
    split <;> simp [hf]
  workers := rfl
  nextReq := rfl

theorem place_setReq_ne {f : AioForkState → AioForkState} (hne : r' ≠ r) :
    (s.setReq r f).place r' = s.place r' := by
  rw [place, reqs_setReq, if_neg hne]
  rfl

theorem result_setReq {f : AioForkState → AioForkState} (hf : ∀ st, (f st).result = st.result)
    (r' : ReqId) : ((s.setReq r f).reqs r').result = (s.reqs r').result := by
  rw [reqs_setReq]
  split <;> simp [hf]

/-- A change of nothing but what the owner knows of a request. -/
theorem Mapped.setReq (h : s.Mapped hand) {f : AioForkState → AioForkState}
    (hf : ∀ st, (f st).core = st.core) (hplace : ∀ st, (f st).place = st.place)
    (hresult : ∀ st, (f st).result = st.result) : (s.setReq r f).Mapped hand := by
  have hsame := place_setReq_same (s := s) (r := r) hplace
  apply h.keep (core_setReq hf) rfl rfl h.free
  · intro r' pid hactive hhand
    exact ⟨hsame ▸ hactive, hhand⟩
  · intro r' hr'
    rwa [hsame] at hr'
  · intro r' hidle hhand
    exact ⟨hsame ▸ hidle, hhand⟩
  · exact fun r' result notify hmem => .inl hmem
  · intro r' result hr'
    exact .inl (result_setReq hresult r' ▸ hr')

theorem Mapped.unqueue (h : s.Mapped none) (hqueued : s.place r = .queued) :
    (s.aioForkUnqueue r).Mapped (some r) ∧ (s.aioForkUnqueue r).Unsent r := by
  have hplace := place_setReq (s := s) (r := r)
    (f := fun st => { st with place := .idle }) fun _ => rfl
  have hsame : SameData s (s.setReq r fun st => { st with place := .idle }) :=
    core_setReq fun _ => rfl
  have hunqueued : s.aioForkUnqueue r = { s.setReq r fun st => { st with place := .idle } with
      pending := s.pending.erase r, numPending := s.numPending - 1 } :=
    if_neg (not_not.mpr hqueued)
  have hplace' : ∀ r', (s.aioForkUnqueue r).place r' = if r' = r then .idle else s.place r' := by
    intro r'
    rw [hunqueued, ← Function.update_apply, ← hplace]
    rfl
  have hresult : ∀ r', ((s.aioForkUnqueue r).reqs r').result = (s.reqs r').result := by
    intro r'
    rw [hunqueued]
    exact result_setReq (f := fun st => { st with place := .idle }) (fun _ => rfl) r'
  have hsame' : SameData s (s.aioForkUnqueue r) := by
    rw [hunqueued]
    exact ⟨hsame.core, rfl, rfl⟩
  refine ⟨?_, (h.unsent r hqueued).keep (hsame'.core r) (Nat.le_of_eq hsame'.nextReq.symm)⟩
  apply h.keep hsame'
  case hpid => rw [hunqueued]; rfl
  case hwritten => rw [hunqueued]; rfl
  case hfree => rw [hunqueued]; exact h.free
  case hactive => grind
  case hunsent => grind
  case hover => grind
  case hstack =>
    rw [hunqueued]
    exact fun r' result notify hmem => .inl hmem
  case hresults => exact fun r' result hr' => .inl (hresult r' ▸ hr')

/-- The mapping of a helper that has nothing to do may be filled. -/
theorem Mapped.fillMap (h : s.Mapped hand) (hfree : s.Free pid)
    (hnone : ∀ r, s.place r = .active pid → hand = some r) (f : Bytes → Bytes) :
    (s.setWorker pid fun worker => { worker with map := f worker.map }).Mapped hand := by
  obtain ⟨hjob, hreply⟩ := hfree
  have hother : ∀ pid' ≠ pid, (s.setWorker pid fun worker =>
      { worker with map := f worker.map }).workers pid' = s.workers pid' := fun _ hne => if_neg hne
  have hjobs : ∀ pid', ((s.setWorker pid fun worker =>
      { worker with map := f worker.map }).workers pid').job = (s.workers pid').job := by
    intro pid'
    simp only [Share.setWorker]
    split <;> rfl
  have hreplies : ∀ pid', ((s.setWorker pid fun worker =>
      { worker with map := f worker.map }).workers pid').reply = (s.workers pid').reply := by
    intro pid'
    simp only [Share.setWorker]
    split <;> rfl
  constructor
  case free =>
    intro c hc hbusy
    rw [Free, hjobs, hreplies]
    exact h.free c hc hbusy
  case unborn =>
    intro pid' hle
    rw [hjobs]
    exact h.unborn pid' hle
  case serves =>
    intro pid' job hjob'
    rw [hjobs] at hjob'
    have hne : pid' ≠ pid := by
      rintro rfl
      simp [hjob] at hjob'
    exact (h.serves pid' job hjob').keep rfl (hother pid' hne) (Nat.le_refl _)
  case attends =>
    intro r' pid' hplace hhand
    have hne : pid' ≠ pid := by
      rintro rfl
      exact hhand (hnone r' hplace)
    exact (h.attends r' pid' hplace hhand).keep rfl (hother pid' hne) (Nat.le_refl _)
  case unsent => exact fun r' hr' => (h.unsent r' hr').keep rfl (Nat.le_refl _)
  case promised =>
    intro r' result notify hmem
    have hfits := h.promised r' result notify hmem
    exact hfits.keep rfl (fun pid' job hjob' _ => ⟨pid', hjobs pid' ▸ hjob'⟩) (Nat.le_refl _) hfits.ended
  case results =>
    intro r' result hr'
    have hfits := h.results r' result hr'
    exact hfits.keep rfl (fun pid' job hjob' _ => ⟨pid', hjobs pid' ▸ hjob'⟩) (Nat.le_refl _) hfits.ended
  case written => exact h.written

theorem holds_fill (bytes : Bytes) (worker : Worker) :
    Holds { worker with map := fill bytes worker.map } bytes := List.take_left

/-- The data of a write is in the mapping before the command is sent. -/
theorem Mapped.occupy (h : s.Mapped (some r)) (hunsent : s.Unsent r) (hinv : s.Inv False (some r))
    (hchild : child ∈ s.children) (hbusy : child.busy = false) :
    (s.occupy r child.pid).Mapped (some r) ∧ (s.occupy r child.pid).Unsent r ∧
      (s.occupy r child.pid).Free child.pid ∧
      ((s.reqs r).cmd.writes → (s.reqs r).original.length = (s.reqs r).n →
        Holds ((s.occupy r child.pid).workers child.pid) (s.reqs r).original) := by
  have hnone := hinv.assigned.idle_child hchild hbusy
  have hfree := h.free child hchild hbusy
  have hsame : SameData s (s.setReq r fun st => { st with place := .active child.pid }) :=
    core_setReq fun _ => rfl
  have hresult := result_setReq (s := s) (r := r)
    (f := fun st => { st with place := .active child.pid }) fun _ => rfl
  have hplace : ∀ r', ((s.setReq r fun st => { st with place := .active child.pid }).setChild child.pid
      fun child => { child with busy := true, dontDelete := true }).place r' =
      if r' = r then .active child.pid else s.place r' := by
    intro r'
    rw [← Function.update_apply, ← place_setReq (s := s) (r := r)
      (f := fun st => { st with place := .active child.pid }) fun _ => rfl]
    rfl
  have htaken : ((s.setReq r fun st => { st with place := .active child.pid }).setChild child.pid
      fun child => { child with busy := true, dontDelete := true }).Mapped (some r) := by
    apply h.keep
    case hsame => exact ⟨hsame.core, rfl, rfl⟩
    case hpid => rfl
    case hwritten => rfl
    case hfree =>
      intro c hc hidle
      obtain ⟨c', hc', rfl⟩ := mem_updateChild.mp hc
      have := h.free c' hc'
      grind
    case hactive => grind
    case hunsent => grind
    case hover => grind
    case hstack => exact fun r' result notify hmem => .inl hmem
    case hresults => exact fun r' result hr' => .inl (hresult r' ▸ hr')
  have hunsent' : (s.setReq r fun st => { st with place := .active child.pid }).Unsent r :=
    hunsent.keep (hsame.core r) (Nat.le_refl _)
  rw [Share.occupy]
  split
  · rename_i hwrites
    refine ⟨htaken.fillMap hfree ?_ _, ⟨hunsent'.1, hunsent'.2, hunsent'.3, hunsent'.4⟩, ?_, ?_⟩
    · intro r' hactive
      have := hnone r'
      grind
    · simpa [Free, Share.setWorker, Share.setChild, Share.setReq] using hfree
    · intro _ hlength
      have htake : (s.reqs r).data.take (s.reqs r).n = (s.reqs r).original := by
        rw [hunsent.untouched, ← hlength, List.take_length]
      simp only [Share.setWorker, if_true, htake]
      exact holds_fill _ _
  · rename_i hwrites
    exact ⟨htaken, ⟨hunsent'.1, hunsent'.2, hunsent'.3, hunsent'.4⟩, hfree,
      fun hw => absurd hw hwrites⟩

/-- The helper has its command, and the request is its own from now on. -/
theorem Mapped.sendCmd (h : s.Mapped (some r)) (hunsent : s.Unsent r) (hinv : s.Inv False none)
    (hplace : s.place r = .active pid) (hfree : s.Free pid)
    (hholds : (s.reqs r).cmd.writes → (s.reqs r).original.length = (s.reqs r).n →
      Holds (s.workers pid) (s.reqs r).original) : (s.sendCmd r pid).Mapped none := by
  obtain ⟨hknown, hunsent, hread, hdata⟩ := hunsent
  obtain ⟨child, hchild, rfl⟩ := hinv.assigned.helper r pid hplace
  have hothers : ∀ pid' ≠ child.pid, (s.sendCmd r child.pid).workers pid' = s.workers pid' :=
    fun _ hne => if_neg hne
  have hreqs : ∀ r' ≠ r, (s.sendCmd r child.pid).reqs r' = s.reqs r' := fun _ hne => if_neg hne
  have hreq : (s.sendCmd r child.pid).reqs r = { s.reqs r with sentTo := some child.pid } := if_pos rfl
  have hworker : (s.sendCmd r child.pid).workers child.pid = { s.workers child.pid with
      job := some ⟨r, (s.reqs r).cmd, (s.reqs r).n, (s.reqs r).offset⟩ } := if_pos rfl
  have hnojob : ∀ pid' job, (s.workers pid').job = some job → job.req ≠ r := by
    intro pid' job hjob hr
    have := (h.serves pid' job hjob).sent
    simp [hr, hunsent] at this
  have hfits : ∀ r' result, s.Fits (some r) r' result → (s.sendCmd r child.pid).Fits none r' result := by
    intro r' result hfits
    have hne : r' ≠ r := fun hr => hfits.ended.2 (congrArg some hr.symm)
    refine hfits.keep (congrArg _ (hreqs r' hne)) ?_ (Nat.le_refl _) ⟨?_, by simp⟩
    · intro pid' job hjob hr
      by_cases hpid : pid' = child.pid
      · subst hpid
        rw [hworker] at hjob
        simp only [Option.some.injEq] at hjob
        exact absurd (hr.symm.trans (congrArg RwCmd.req hjob.symm)) hne
      · exact ⟨pid', hothers pid' hpid ▸ hjob⟩
    · exact (congrArg AioForkState.place (hreqs r' hne)).trans hfits.ended.1
  constructor
  case free =>
    intro c hc hbusy
    have hne : c.pid ≠ child.pid := by
      intro hpid
      have := (hinv.assigned.busy c hc).mpr ⟨r, hpid ▸ hplace⟩
      simp [hbusy] at this
    rw [Free, hothers c.pid hne]
    exact h.free c hc hbusy
  case unborn =>
    intro pid' hle
    have hne : pid' ≠ child.pid := (Nat.lt_of_lt_of_le (hinv.fresh child hchild) hle).ne'
    rw [hothers pid' hne]
    exact h.unborn pid' hle
  case serves =>
    intro pid' job hjob
    by_cases hpid : pid' = child.pid
    · subst hpid
      rw [hworker] at hjob
      simp only [Option.some.injEq] at hjob
      subst hjob
      constructor <;> simp only [hreq, hworker, hread]
      case alone => exact hfree.2
      case known => exact hknown
      case reads => exact ⟨rfl, Nat.zero_le _⟩
      case writes => exact hholds
    · rw [hothers pid' hpid] at hjob
      exact (h.serves pid' job hjob).keep (congrArg _ (hreqs _ (hnojob pid' job hjob)))
        (hothers pid' hpid) (Nat.le_refl _)
  case attends =>
    intro r' pid' hactive _
    by_cases hr : r' = r
    · subst hr
      have hactive' : s.place r' = .active pid' := by
        rw [Share.place, hreq] at hactive
        exact hactive
      have hpid : child.pid = pid' := by simpa using hplace.symm.trans hactive'
      subst hpid
      exact ⟨hknown, by rw [hreq], by rw [hreq, hdata], .inl ⟨_, by rw [hworker], rfl⟩⟩
    · have hactive' : s.place r' = .active pid' := by
        rw [Share.place, hreqs r' hr] at hactive
        exact hactive
      have hpid : pid' ≠ child.pid := by
        rintro rfl
        exact hr (hinv.assigned.one r' r _ hactive' hplace)
      exact (h.attends r' pid' hactive' (by simpa [eq_comm] using hr)).keep
        (congrArg _ (hreqs r' hr)) (hothers pid' hpid) (Nat.le_refl _)
  case unsent =>
    intro r' hr'
    have hne : r' ≠ r := by
      rintro rfl
      have hsame : (s.sendCmd r' child.pid).place r' = s.place r' := by rw [Share.place, hreq]; rfl
      simp [hsame, hplace] at hr'
    rw [Share.place, hreqs r' hne] at hr'
    exact (h.unsent r' hr').keep (congrArg _ (hreqs r' hne)) (Nat.le_refl _)
  case promised =>
    intro r' result notify hmem
    exact hfits r' result (h.promised r' result notify hmem)
  case results =>
    intro r' result hr'
    apply hfits
    by_cases hr : r' = r
    · subst hr
      rw [hreq] at hr'
      exact h.results r' result hr'
    · rw [hreqs r' hr] at hr'
      exact h.results r' result hr'
  case written =>
    intro r' bytes hmem
    have := h.written r' bytes hmem
    by_cases hr : r' = r
    · subst hr
      rw [hreq]
      exact this
    · rw [hreqs r' hr]
      exact this

/-- A helper is let go.  It may be used again only when it has answered. -/
theorem Mapped.release (h : s.Mapped hand) (hr : s.place r = .active pid)
    (hhand : ∀ r', hand = some r' → r' = r) {failed : Bool} (hfree : failed = false → s.Free pid)
    {after : List Frame} (hafter : ∀ r' result notify, Frame.complete r' result notify ∈ after →
      r' = r ∧ s.Delivered r result) : (s.aioForkReleaseChild r failed after).Mapped none := by
  have hr' : (s.reqs r).place = .active pid := hr
  have hval : s.aioForkReleaseChild r failed after = (if failed then
      ((s.setReq r fun st => { st with place := .idle }).setChild pid fun child =>
        { child with busy := false }).freeChild pid
      else (s.setReq r fun st => { st with place := .idle }).setChild pid fun child =>
        { child with busy := false }).push (.schedule :: after) := by
    rw [aioForkReleaseChild, hr']
  have hplace : ∀ r', (s.aioForkReleaseChild r failed after).place r' =
      if r' = r then .idle else s.place r' := by
    intro r'
    rw [← Function.update_apply, ← place_setReq (s := s) (r := r)
      (f := fun st => { st with place := .idle }) fun _ => rfl, hval]
    split <;> rfl
  have hresult : ∀ r', ((s.aioForkReleaseChild r failed after).reqs r').result =
      (s.reqs r').result := by
    intro r'
    rw [← result_setReq (s := s) (r := r) (f := fun st => { st with place := .idle }) (fun _ => rfl)
      r', hval]
    split <;> rfl
  have hcore : SameData s (s.setReq r fun st => { st with place := .idle }) :=
    core_setReq fun _ => rfl
  have hsame : SameData s (s.aioForkReleaseChild r failed after) := by
    rw [hval]
    split <;> exact ⟨hcore.core, rfl, rfl⟩
  apply h.keep hsame
  case hpid => rw [hval]; split <;> rfl
  case hwritten => rw [hval]; split <;> rfl
  case hfree =>
    rw [hval]
    intro c hc hidle
    have hmem : c ∈ updateChild pid (fun child => { child with busy := false }) s.children ∧
        (failed = true → c.pid ≠ pid) := by
      split at hc
      · have hfilter := List.mem_filter.mp hc
        exact ⟨hfilter.1, fun _ => by simpa using hfilter.2⟩
      · rename_i hkept
        exact ⟨hc, fun hfailed => absurd hfailed hkept⟩
    obtain ⟨c', hc', rfl⟩ := mem_updateChild.mp hmem.1
    have := h.free c' hc'
    have := hmem.2
    grind
  case hactive => grind
  case hunsent => grind
  case hover => grind
  case hstack =>
    intro r' result notify hmem
    have hmem' : Frame.complete r' result notify ∈ Frame.schedule :: after ++ s.stack := by
      rw [hval] at hmem
      revert hmem
      split <;> exact fun hmem => hmem
    simp only [List.cons_append, List.mem_cons, List.mem_append, reduceCtorEq, false_or] at hmem'
    rcases hmem' with hnew | hold
    · obtain ⟨rfl, hdelivered⟩ := hafter r' result notify hnew
      exact .inr ⟨hdelivered.same hsame, by simp [hplace], by simp⟩
    · exact .inl hold
  case hresults => exact fun r' result hr' => .inl (hresult r' ▸ hr')

/-- A request completes with a result that fits, unless it is gone. -/
theorem Mapped.teventReqFinish (h : s.Mapped hand) (hhand : ∀ r', hand = some r' → r' = r)
    (hidle : s.place r = .idle) (hdelivered : s.Delivered r result) :
    (s.teventReqFinish r result).Mapped none := by
  have hfinish : ∀ s' : Share, SameData s s' → s'.place = s.place → s'.nextPid = s.nextPid →
      s'.written = s.written → s'.children = s.children → s'.stack = s.stack →
      (∀ r' result', (s'.reqs r').result = some result' →
        (s.reqs r').result = some result' ∨ r' = r ∧ result' = result) → s'.Mapped none := by
    intro s' hsame hplace hpid hwritten hchildren hstack hresult
    have hfits : s'.Fits none r result := ⟨hdelivered.same hsame, hplace ▸ hidle, by simp⟩
    have hplaces : ∀ r', s'.place r' = s.place r' := congrFun hplace
    clear hplace
    apply h.keep hsame hpid hwritten
    case hfree => exact hchildren ▸ h.free
    case hactive => grind
    case hunsent => grind
    case hover => grind
    case hstack => exact fun r' result notify hmem => .inl (hstack ▸ hmem)
    case hresults =>
      intro r' result' hr'
      rcases hresult r' result' hr' with hold | ⟨rfl, rfl⟩
      · exact .inl hold
      · exact .inr hfits
  rw [Share.teventReqFinish]
  split
  · exact hfinish _ ⟨fun _ => rfl, rfl, rfl⟩ rfl rfl rfl rfl rfl fun _ _ hr' => .inl hr'
  · apply hfinish
    · exact core_setReq fun _ => rfl
    · exact place_setReq_same fun _ => rfl
    · rfl
    · rfl
    · rfl
    · rfl
    · intro r' result' hr'
      rw [reqs_setReq] at hr'
      grind

theorem Unsent.delivered_error (h : s.Unsent r) (e : Errno) : s.Delivered r (.error e) :=
  ⟨h.known, by simp [Result.delivers], fun _ => h.untouched⟩

theorem Attends.delivered_error (h : s.Attends r pid) (e : Errno) : s.Delivered r (.error e) :=
  ⟨h.known, by simp [Result.delivers], fun _ => h.untouched⟩

theorem mem_complete {result' : Result} {notify notify' : Bool}
    (h : Frame.complete r' result' notify' ∈ [Frame.complete r result notify]) :
    r' = r ∧ result' = result := by
  simp only [List.mem_singleton, Frame.complete.injEq] at h
  exact ⟨h.1, h.2.1⟩

theorem Mapped.aioForkDispatch (h : s.Mapped (some r)) (hunsent : s.Unsent r)
    (hinv : s.Inv False (some r)) (hchild : child ∈ s.children) (hbusy : child.busy = false)
    (notify : Bool) : (s.aioForkDispatch luck r child.pid notify).1.Mapped none := by
  obtain ⟨hoccupied, hunsent', hfree, hholds⟩ := h.occupy hunsent hinv hchild hbusy
  have hreq : ((s.occupy r child.pid).reqs r).core = (s.reqs r).core := by
    rw [Share.occupy]
    split <;> simp [Share.setReq, Share.setChild, Share.setWorker, AioForkState.core]
  rw [Share.aioForkDispatch]
  cases luck.writeFd with
  | error e =>
    apply hoccupied.release place_occupy (by simp) (by simp)
    intro r' result' notify' hmem
    obtain ⟨rfl, rfl⟩ := mem_complete hmem
    exact ⟨rfl, hunsent'.delivered_error e⟩
  | ok _ =>
    have hsent : ((s.occupy r child.pid).sendCmd r child.pid).Mapped none := by
      apply hoccupied.sendCmd hunsent' (hinv.occupy hchild hbusy) place_occupy hfree
      obtain ⟨hcmd, hn, -, horiginal, -⟩ := core_fields hreq
      rw [hcmd, hn, horiginal]
      exact hholds
    show (if luck.readPacketOk then _ else _ : Share × Bool).1.Mapped none
    split
    · exact hsent
    · have hsame := place_setReq_same (s := s.occupy r child.pid) (r := r)
        (f := fun st => { st with sentTo := some child.pid }) fun _ => rfl
      have hplace : ((s.occupy r child.pid).sendCmd r child.pid).place r = .active child.pid :=
        (congrFun hsame r).trans place_occupy
      apply hsent.release hplace (by simp) (by simp)
      intro r' result' notify' hmem
      obtain ⟨rfl, rfl⟩ := mem_complete hmem
      exact ⟨rfl, (hsent.attends r' _ hplace (by simp)).delivered_error ENOMEM⟩

/-- The buffer of the request in hand is filled. -/
theorem Mapped.setData (h : s.Mapped (some r)) {f : AioForkState → AioForkState}
    (hf : ∀ st, f st = { st with data := (f st).data, readBytes := (f st).readBytes })
    (hplace : s.place r ≠ .queued)
    (hnojob : ∀ pid job, (s.workers pid).job = some job → job.req ≠ r) :
    (s.setReq r f).Mapped (some r) := by
  have hreqs : ∀ r' ≠ r, (s.setReq r f).reqs r' = s.reqs r' := fun _ hne => if_neg hne
  have hreq : (s.setReq r f).reqs r = f (s.reqs r) := if_pos rfl
  have hsame : (s.setReq r f).place = s.place := place_setReq_same fun st => by rw [hf]
  have hfits : ∀ r' result, s.Fits (some r) r' result → (s.setReq r f).Fits (some r) r' result := by
    intro r' result hfits
    have hne : r' ≠ r := fun hr => hfits.ended.2 (congrArg some hr.symm)
    exact hfits.keep (congrArg _ (hreqs r' hne)) (fun pid job hjob _ => ⟨pid, hjob⟩) (Nat.le_refl _)
      (hsame ▸ hfits.ended)
  constructor
  case free => exact h.free
  case unborn => exact h.unborn
  case serves =>
    intro pid job hjob
    exact (h.serves pid job hjob).keep (congrArg _ (hreqs _ (hnojob pid job hjob))) rfl (Nat.le_refl _)
  case attends =>
    intro r' pid hactive hhand
    have hne : r' ≠ r := fun hr => hhand (congrArg some hr.symm)
    exact (h.attends r' pid (hsame ▸ hactive) hhand).keep (congrArg _ (hreqs r' hne)) rfl
      (Nat.le_refl _)
  case unsent =>
    intro r' hr'
    rw [hsame] at hr'
    have hne : r' ≠ r := fun hr => hplace (hr ▸ hr')
    exact (h.unsent r' hr').keep (congrArg _ (hreqs r' hne)) (Nat.le_refl _)
  case promised =>
    intro r' result notify hmem
    exact hfits r' result (h.promised r' result notify hmem)
  case results =>
    intro r' result hr'
    have hresult := result_setReq (s := s) (r := r) (f := f) (fun st => by rw [hf]) r'
    exact hfits r' result (h.results r' result (hresult ▸ hr'))
  case written =>
    intro r' bytes hmem
    have hwritten := h.written r' bytes hmem
    rw [reqs_setReq]
    split
    · rw [hf]
      exact hwritten
    · exact hwritten

theorem Unsent.no_job (h : s.Unsent r) (hmapped : s.Mapped hand) {job : RwCmd}
    (hjob : (s.workers pid).job = some job) : job.req ≠ r := by
  rintro rfl
  have hsent := (hmapped.serves pid job hjob).sent
  rw [h.sent] at hsent
  simp at hsent

theorem syncCall_eq (io : Except Errno Bytes) (st : AioForkState) : (syncCall io st).1 = { st with
    data := (syncCall io st).1.data, readBytes := (syncCall io st).1.readBytes } := by
  cases io with
  | error e => rfl
  | ok bytes =>
    simp only [syncCall]
    split <;> rfl

/-- A read fills the start of the buffer; another call, and one that fails, leaves it alone. -/
theorem syncCall_data (io : Except Errno Bytes) {st : AioForkState} (h : st.data = st.original) :
    ((syncCall io st).2.delivers st.cmd = true →
      (syncCall io st).2.announces (syncCall io st).1.readBytes.length ∧
      (syncCall io st).1.readBytes.length ≤ st.n ∧
      (syncCall io st).1.data = fill (syncCall io st).1.readBytes st.original) ∧
    ((syncCall io st).2.delivers st.cmd = false → (syncCall io st).1.data = st.original) := by
  cases io with
  | error e => simp [syncCall, Result.delivers, h]
  | ok bytes =>
    cases hcmd : st.cmd <;>
      simp [syncCall, hcmd, Result.delivers, Result.announces, h]

/-- A request that is executed synchronously gets its own data. -/
theorem Mapped.aioForkRunSync (h : s.Mapped (some r)) (hunsent : s.Unsent r)
    (hidle : s.place r = .idle) (luck : Luck) : (s.aioForkRunSync luck r).Mapped none := by
  have hset := h.setData (f := fun st => (syncCall luck.io st).1) (syncCall_eq luck.io)
    (by simp [hidle]) fun pid job hjob => hunsent.no_job h hjob
  have hreq : (s.setReq r fun st => (syncCall luck.io st).1).reqs r = (syncCall luck.io (s.reqs r)).1 :=
    if_pos rfl
  have hsame := syncCall_eq luck.io (s.reqs r)
  have hdata := syncCall_data luck.io hunsent.untouched
  apply hset.teventReqFinish (by simp)
  · rw [Share.place, hreq, hsame]
    exact hidle
  · constructor
    case known => exact hunsent.known
    case delivered =>
      rw [hreq, show (syncCall luck.io (s.reqs r)).1.cmd = (s.reqs r).cmd by rw [hsame],
        show (syncCall luck.io (s.reqs r)).1.n = (s.reqs r).n by rw [hsame],
        show (syncCall luck.io (s.reqs r)).1.original = (s.reqs r).original by rw [hsame]]
      intro hdelivers
      obtain ⟨hannounces, hsize, hfilled⟩ := hdata.1 hdelivers
      exact ⟨hannounces, hsize, hfilled, fun pid job hjob => hunsent.no_job h hjob⟩
    case untouched =>
      rw [hreq, show (syncCall luck.io (s.reqs r)).1.cmd = (s.reqs r).cmd by rw [hsame],
        show (syncCall luck.io (s.reqs r)).1.original = (s.reqs r).original by rw [hsame]]
      exact hdata.2

/-- A request in hand goes to the end of the queue. -/
theorem Mapped.enqueue (h : s.Mapped (some r)) (hunsent : s.Unsent r) :
    (s.enqueue r).Mapped none := by
  have hsame : SameData s (s.setReq r fun st => { st with place := .queued }) :=
    core_setReq fun _ => rfl
  have hresult := result_setReq (s := s) (r := r)
    (f := fun st => { st with place := .queued }) fun _ => rfl
  have hplace : ∀ r', (s.enqueue r).place r' = if r' = r then .queued else s.place r' := by
    intro r'
    rw [← Function.update_apply, ← place_setReq (s := s) (r := r)
      (f := fun st => { st with place := .queued }) fun _ => rfl]
    rfl
  have hsame' : SameData s (s.enqueue r) := ⟨hsame.core, rfl, rfl⟩
  constructor
  case free => exact h.free
  case unborn => exact h.unborn
  case serves =>
    intro pid job hjob
    exact (h.serves pid job hjob).keep (hsame.core _) rfl (Nat.le_refl _)
  case attends =>
    intro r' pid hactive _
    have hne : r' ≠ r := by
      rintro rfl
      simp [hplace] at hactive
    rw [hplace, if_neg hne] at hactive
    exact (h.attends r' pid hactive (by simpa [eq_comm] using hne)).keep (hsame.core r') rfl
      (Nat.le_refl _)
  case unsent =>
    intro r' hr'
    by_cases hne : r' = r
    · subst hne
      exact hunsent.keep (hsame.core r') (Nat.le_refl _)
    · rw [hplace, if_neg hne] at hr'
      exact (h.unsent r' hr').keep (hsame.core r') (Nat.le_refl _)
  case promised =>
    intro r' result notify hmem
    have hfits := h.promised r' result notify hmem
    have hne : r' ≠ r := fun hr => hfits.ended.2 (congrArg some hr.symm)
    exact ⟨hfits.toDelivered.same hsame', by rw [hplace, if_neg hne]; exact hfits.ended.1, by simp⟩
  case results =>
    intro r' result hr'
    have hfits := h.results r' result (hresult r' ▸ hr')
    have hne : r' ≠ r := fun hr => hfits.ended.2 (congrArg some hr.symm)
    exact ⟨hfits.toDelivered.same hsame', by rw [hplace, if_neg hne]; exact hfits.ended.1, by simp⟩
  case written =>
    intro r' bytes hmem
    have hfields := core_fields (hsame.core r')
    have hwritten := h.written r' bytes hmem
    rw [← hfields.2.1, ← hfields.2.2.2.1] at hwritten
    exact hwritten

theorem Mapped.giveBack (h : s.Mapped hand) : (s.giveBack r).Mapped hand :=
  h.setReq (fun _ => rfl) (fun _ => rfl) fun _ => rfl

/-- A helper that is new has nothing to do. -/
theorem Mapped.createAioChild (h : s.Mapped hand) {hand' : Option ReqId} (hinv : s.Inv False hand') :
    s.createAioChild.Mapped hand := by
  have hothers : ∀ pid ≠ s.nextPid, s.createAioChild.workers pid = s.workers pid :=
    fun _ hne => if_neg hne
  have hworker : s.createAioChild.workers s.nextPid = ⟨zeros aioMapSize, none, none⟩ := if_pos rfl
  have hjobs : ∀ pid job, (s.createAioChild.workers pid).job = some job →
      pid ≠ s.nextPid ∧ (s.workers pid).job = some job := by
    intro pid job hjob
    by_cases hpid : pid = s.nextPid
    · simp [hpid, hworker] at hjob
    · exact ⟨hpid, hothers pid hpid ▸ hjob⟩
  have hfits : ∀ r result, s.Fits hand r result → s.createAioChild.Fits hand r result :=
    fun r result hfits => hfits.keep rfl (fun pid job hjob _ => ⟨pid, (hjobs pid job hjob).2⟩)
      (Nat.le_refl _) hfits.ended
  constructor
  case free =>
    intro c hc hbusy
    rcases List.mem_cons.mp hc with rfl | hc
    · exact ⟨by rw [hworker], by rw [hworker]⟩
    · rw [Free, hothers c.pid (Nat.ne_of_lt (hinv.fresh c hc))]
      exact h.free c hc hbusy
  case unborn =>
    intro pid hle
    have hlt : s.nextPid < pid := hle
    rw [hothers pid hlt.ne']
    exact h.unborn pid (Nat.le_of_lt hlt)
  case serves =>
    intro pid job hjob
    obtain ⟨hpid, hjob'⟩ := hjobs pid job hjob
    exact (h.serves pid job hjob').keep rfl (hothers pid hpid) (Nat.le_refl _)
  case attends =>
    intro r pid hactive hhand
    obtain ⟨child, hchild, rfl⟩ := hinv.assigned.helper r pid hactive
    exact (h.attends r _ hactive hhand).keep rfl
      (hothers _ (Nat.ne_of_lt (hinv.fresh child hchild))) (Nat.le_refl _)
  case unsent => exact fun r hr => (h.unsent r hr).keep rfl (Nat.le_refl _)
  case promised => exact fun r result notify hmem => hfits r result (h.promised r result notify hmem)
  case results => exact fun r result hr => hfits r result (h.results r result hr)
  case written => exact h.written

/-- A new request is in hand. -/
theorem Mapped.createReq (h : s.Mapped none) (cmd : CmdType) (n offset : Nat) (data : Bytes) :
    (s.createReq cmd n offset data).Mapped (some s.nextReq) ∧
      (s.createReq cmd n offset data).Unsent s.nextReq ∧
      (s.createReq cmd n offset data).place s.nextReq = .idle := by
  have hreqs : ∀ r ≠ s.nextReq, (s.createReq cmd n offset data).reqs r = s.reqs r :=
    fun _ hne => if_neg hne
  have hreq : (s.createReq cmd n offset data).reqs s.nextReq =
      ⟨cmd, n, offset, data, .idle, 0, none, false, false, data, [], none⟩ := if_pos rfl
  have hnext : s.nextReq ≤ (s.createReq cmd n offset data).nextReq := Nat.le_succ _
  have hfits : ∀ r result, s.Fits none r result →
      (s.createReq cmd n offset data).Fits (some s.nextReq) r result := by
    intro r result hfits
    have hne : r ≠ s.nextReq := Nat.ne_of_lt hfits.known
    refine hfits.keep (congrArg _ (hreqs r hne)) (fun pid job hjob _ => ⟨pid, hjob⟩) hnext ⟨?_, ?_⟩
    · exact (congrArg AioForkState.place (hreqs r hne)).trans hfits.ended.1
    · simpa [eq_comm] using hne
  refine ⟨?_, ⟨Nat.lt_succ_self _, by rw [hreq], by rw [hreq], by rw [hreq]⟩, by
    rw [Share.place, hreq]⟩
  constructor
  case free => exact h.free
  case unborn => exact h.unborn
  case serves =>
    intro pid job hjob
    have hserves := h.serves pid job hjob
    exact hserves.keep (congrArg _ (hreqs _ (Nat.ne_of_lt hserves.known))) rfl hnext
  case attends =>
    intro r pid hactive hhand
    have hne : r ≠ s.nextReq := by simpa [eq_comm] using hhand
    rw [Share.place, hreqs r hne] at hactive
    exact (h.attends r pid hactive (by simp)).keep (congrArg _ (hreqs r hne)) rfl hnext
  case unsent =>
    intro r hr
    have hne : r ≠ s.nextReq := by
      rintro rfl
      rw [Share.place, hreq] at hr
      simp at hr
    rw [Share.place, hreqs r hne] at hr
    exact (h.unsent r hr).keep (congrArg _ (hreqs r hne)) hnext
  case promised => exact fun r result notify hmem => hfits r result (h.promised r result notify hmem)
  case results =>
    intro r result hr
    have hne : r ≠ s.nextReq := by
      rintro rfl
      rw [hreq] at hr
      simp at hr
    exact hfits r result (h.results r result (hreqs r hne ▸ hr))
  case written =>
    intro r bytes hmem
    obtain ⟨hknown, hwritten⟩ := h.written r bytes hmem
    rw [hreqs r (Nat.ne_of_lt hknown)]
    exact ⟨Nat.lt_of_lt_of_le hknown hnext, hwritten⟩

/-! ## The functions -/

theorem Mapped.startPending {rest : List ReqId} (h : s.Mapped none) (hinv : s.Inv False none)
    (hpending : s.pending = r :: rest) : (s.startPending r).Mapped (some r) ∧
      (s.startPending r).Unsent r := by
  have hqueued : s.place r = .queued := (hinv.assigned.queued r).mp (by simp [hpending])
  obtain ⟨hmapped, hunsent⟩ := h.unqueue hqueued
  refine ⟨?_, hunsent.1, hunsent.2, hunsent.3, hunsent.4⟩
  exact hmapped.keep ⟨fun _ => rfl, rfl, rfl⟩ rfl rfl hmapped.free (fun _ _ hr hh => ⟨hr, hh⟩)
    (fun _ hr => hr) (fun _ hr hh => ⟨hr, hh⟩) (fun _ _ _ hmem => .inl hmem) fun _ _ hr => .inl hr

/-- A change that concerns neither requests nor mappings. -/
theorem Mapped.of_eq (h : s.Mapped none) (hreqs : s'.reqs = s.reqs) (hworkers : s'.workers = s.workers)
    (hnext : s'.nextReq = s.nextReq) (hpid : s'.nextPid = s.nextPid) (hwritten : s'.written = s.written)
    (hfree : ∀ child ∈ s'.children, child.busy = false → s.Free child.pid)
    (hstack : ∀ r result notify, Frame.complete r result notify ∈ s'.stack →
      Frame.complete r result notify ∈ s.stack) : s'.Mapped none := by
  have hplace : s'.place = s.place := by
    funext r
    exact congrArg AioForkState.place (congrFun hreqs r)
  apply h.keep ⟨fun r => congrArg _ (congrFun hreqs r), hworkers, hnext⟩ hpid hwritten hfree
  · exact fun r pid hr hh => ⟨hplace ▸ hr, hh⟩
  · exact fun r hr => hplace ▸ hr
  · exact fun r hr hh => ⟨hplace ▸ hr, hh⟩
  · exact fun r result notify hmem => .inl (hstack r result notify hmem)
  · exact fun r result hr => .inl (congrFun hreqs r ▸ hr)

theorem Mapped.pop (h : s.Mapped none) : s.pop.Mapped none :=
  h.of_eq rfl rfl rfl rfl rfl h.free fun _ _ _ hmem => List.mem_of_mem_tail hmem

theorem Mapped.pushActions (h : s.Mapped none) (script : List Action) :
    (s.push [.actions script]).Mapped none :=
  h.of_eq rfl rfl rfl rfl rfl h.free fun _ _ _ hmem => by
    simpa [Share.push] using hmem

theorem Mapped.dispatchNew (h : s.Mapped (some r)) (hunsent : s.Unsent r)
    (hinv : s.Inv False (some r)) (hchild : child ∈ s.children) (hbusy : child.busy = false) :
    (s.dispatchNew luck r child.pid).Mapped none := by
  have hdispatched : (s.aioForkDispatch luck r child.pid false).1.Mapped none :=
    h.aioForkDispatch hunsent hinv hchild hbusy false
  rw [Share.dispatchNew]
  split
  · exact hdispatched.giveBack
  · exact hdispatched

theorem Unsent.createAioChild (h : s.Unsent r) : s.createAioChild.Unsent r :=
  h.keep rfl (Nat.le_refl _)

theorem Mapped.submitReq (h : s.Mapped (some r)) (hunsent : s.Unsent r)
    (hinv : s.Inv False (some r)) : (s.submitReq luck r).Mapped none := by
  have hidle : s.place r = .idle := hinv.in_hand.2.2.2.1
  have hsync : ((s.aioForkRunSync luck r).giveBack r).Mapped none :=
    (h.aioForkRunSync hunsent hidle luck).giveBack
  rw [Share.submitReq]
  cases hfind : s.aioForkFindIdleChild with
  | some child =>
    obtain ⟨hchild, hbusy⟩ := findIdleChild_some hfind
    exact h.dispatchNew hunsent hinv hchild hbusy
  | none =>
    show (if s.maxChildren = 0 ∨ s.numChildren < s.maxChildren then _ else _ : Share).Mapped none
    split
    · rename_i hmay
      rw [hinv.numChildren] at hmay
      split
      · have hnew : ⟨s.nextPid, false, false⟩ ∈ s.createAioChild.children := List.mem_cons_self
        exact (h.createAioChild hinv).dispatchNew hunsent.createAioChild (hinv.createAioChild hmay)
          hnew rfl
      · exact hsync
    · split
      · exact (h.enqueue hunsent).giveBack
      · exact hsync

theorem Mapped.initAioChildren (h : s.Mapped hand) (luck : Luck) :
    (s.initAioChildren luck).Mapped hand ∧
    (∀ r, s.Unsent r → (s.initAioChildren luck).Unsent r) ∧
    (s.initAioChildren luck).place = s.place := by
  have hsame : ∀ s' : Share, s'.reqs = s.reqs → s'.workers = s.workers → s'.nextReq = s.nextReq →
      s'.nextPid = s.nextPid → s'.written = s.written → s'.stack = s.stack →
      (∀ child ∈ s'.children, child ∈ s.children) →
      s'.Mapped hand ∧ (∀ r, s.Unsent r → s'.Unsent r) ∧ s'.place = s.place := by
    intro s' hreqs hworkers hnext hpid hwritten hstack hchildren
    have hplace : s'.place = s.place := by
      funext r
      exact congrArg AioForkState.place (congrFun hreqs r)
    have hdata : SameData s s' := ⟨fun r => congrArg _ (congrFun hreqs r), hworkers, hnext⟩
    refine ⟨?_, fun r hr => hr.keep (hdata.core r) (Nat.le_of_eq hnext.symm), hplace⟩
    apply h.keep hdata hpid hwritten
    · exact fun c hc hbusy => h.free c (hchildren c hc) hbusy
    · exact fun r pid hr hh => ⟨hplace ▸ hr, hh⟩
    · exact fun r hr => hplace ▸ hr
    · exact fun r hr hh => ⟨hplace ▸ hr, hh⟩
    · exact fun r result notify hmem => .inl (hstack ▸ hmem)
    · exact fun r result hr => .inl (congrFun hreqs r ▸ hr)
  rw [Share.initAioChildren]
  split
  · exact hsame s rfl rfl rfl rfl rfl rfl fun _ hc => hc
  · split
    · exact hsame _ rfl rfl rfl rfl rfl rfl fun _ hc => hc
    · split
      · exact hsame _ rfl rfl rfl rfl rfl rfl (by simp)
      · exact hsame _ rfl rfl rfl rfl rfl rfl fun _ hc => hc

theorem Mapped.aioForkSend (h : s.Mapped none) (hinv : s.Inv False none) (cmd : CmdType)
    (n offset : Nat) (data : Bytes) : (s.aioForkSend luck cmd n offset data).Mapped none := by
  obtain ⟨hnew, hunsent, hidle⟩ := h.createReq cmd n offset data
  have hinv' := hinv.createReq cmd n offset data
  obtain ⟨hinit, hkeeps, hplace⟩ := hnew.initAioChildren luck
  rw [Share.aioForkSend]
  show (if cmd ≠ .fsync ∧ aioMapSize < n then _ else _ : Share).Mapped none
  split
  · exact (hnew.teventReqFinish (by simp) hidle (hunsent.delivered_error EINVAL)).giveBack
  · show (if ((s.createReq cmd n offset data).initAioChildren luck).cleanupEvent then _
      else _ : Share).Mapped none
    split
    · exact hinit.submitReq (hkeeps _ hunsent) (hinv'.initAioChildren False.elim)
    · have hidle' : ((s.createReq cmd n offset data).initAioChildren luck).place s.nextReq = .idle :=
        (congrFun hplace _).trans hidle
      exact (hinit.teventReqFinish (by simp) hidle'
        ((hkeeps _ hunsent).delivered_error ENOMEM)).giveBack

/-- When a request is freed, its helper leaves the pool with the mapping. -/
theorem Mapped.freeReq (h : s.Mapped none) : (s.freeReq r).Mapped none := by
  have hfreed : ∀ s' : Share, s'.Mapped none →
      (s'.setReq r fun st => { st with freed := true }).Mapped none :=
    fun s' h' => h'.setReq (fun _ => rfl) (fun _ => rfl) fun _ => rfl
  rw [Share.freeReq]
  split
  · exact h
  · cases hplace : s.place r with
    | idle =>
      have hplace' : (s.reqs r).place = .idle := hplace
      rw [aioForkUnqueue, if_pos (by simp [hplace']), aioForkReleaseChild, hplace']
      exact hfreed s h
    | queued =>
      obtain ⟨hunqueued, hunsent⟩ := h.unqueue hplace
      have hval : s.aioForkUnqueue r = { s.setReq r fun st => { st with place := .idle } with
          pending := s.pending.erase r, numPending := s.numPending - 1 } :=
        if_neg (not_not.mpr hplace)
      have hidle : ((s.aioForkUnqueue r).reqs r).place = .idle := by
        rw [hval]
        simp [Share.setReq]
      rw [aioForkReleaseChild, hidle]
      apply hfreed
      apply hunqueued.keep ⟨fun _ => rfl, rfl, rfl⟩ rfl rfl hunqueued.free
      · intro r' pid hactive _
        refine ⟨hactive, ?_⟩
        intro hr
        simp only [Option.some.injEq] at hr
        subst hr
        exact absurd (hidle.symm.trans hactive) (by simp)
      · exact fun r' hr' => hr'
      · exact fun r' hr' _ => ⟨hr', by simp⟩
      · exact fun r' result notify hmem => .inl hmem
      · exact fun r' result hr' => .inl hr'
    | active pid =>
      have hplace' : (s.reqs r).place = .active pid := hplace
      rw [aioForkUnqueue, if_pos (by simp [hplace'])]
      exact hfreed _ (h.release hplace (by simp) (by simp) (by simp))

theorem Mapped.aioForkSchedulePending (h : s.Mapped none) (hinv : s.Inv False none) :
    (s.aioForkSchedulePending luck).Mapped none := by
  have hpop : s.pop.Mapped none := h.pop
  rw [Share.aioForkSchedulePending]
  cases hpending : s.pending with
  | nil => exact hpop
  | cons r others =>
    obtain ⟨hstarted, hunsent⟩ := h.startPending hinv hpending
    have hinv' := hinv.startPending hpending
    cases hfind : s.aioForkFindIdleChild with
    | some child =>
      obtain ⟨hchild, hbusy⟩ := findIdleChild_some hfind
      exact hstarted.aioForkDispatch hunsent hinv' (by rw [children_startPending]; exact hchild) hbusy
        true
    | none =>
      show (if s.maxChildren ≠ 0 ∧ s.maxChildren ≤ s.numChildren then _ else _ : Share).Mapped none
      split
      · exact hpop
      · rename_i hmay
        rw [hinv.numChildren] at hmay
        split
        · have hcreated := hinv.createAioChild (by omega)
          obtain ⟨hstarted', hunsent'⟩ := (h.createAioChild hinv).startPending hcreated hpending
          have hnew : ⟨s.nextPid, false, false⟩ ∈ (s.createAioChild.startPending r).children := by
            rw [children_startPending]
            exact List.mem_cons_self
          exact hstarted'.aioForkDispatch hunsent' (hcreated.startPending hpending) hnew rfl true
        · have hidle := hinv'.in_hand.2.2.2.1
          exact (hstarted.aioForkRunSync hunsent hidle luck).pushActions _

theorem Mapped.perform (h : s.Mapped none) (hinv : s.Inv False none) (action : Action) :
    (s.perform luck action).Mapped none := by
  cases action with
  | submit cmd n offset data => exact h.aioForkSend hinv cmd n offset data
  | free r => exact h.freeReq

/-- The answer of a helper is read, and its request is in hand. -/
theorem Mapped.readReply (h : s.Mapped none) (hinv : s.Inv False none) (hplace : s.place r = .active pid)
    (hjob : (s.workers pid).job = none) :
    (s.setWorker pid fun worker => { worker with reply := none }).Mapped (some r) := by
  have hothers : ∀ pid' ≠ pid, (s.setWorker pid fun worker =>
      { worker with reply := none }).workers pid' = s.workers pid' := fun _ hne => if_neg hne
  have hworker : (s.setWorker pid fun worker => { worker with reply := none }).workers pid =
      { s.workers pid with reply := none } := if_pos rfl
  have hjobs : ∀ pid', ((s.setWorker pid fun worker => { worker with reply := none }).workers pid').job =
      (s.workers pid').job := by
    intro pid'
    by_cases hpid : pid' = pid
    · rw [hpid, hworker]
    · rw [hothers pid' hpid]
  have hfits : ∀ r' result, s.Fits none r' result →
      (s.setWorker pid fun worker => { worker with reply := none }).Fits (some r) r' result := by
    intro r' result hfits
    refine hfits.keep rfl (fun pid' job hjob' _ => ⟨pid', hjobs pid' ▸ hjob'⟩) (Nat.le_refl _)
      ⟨hfits.ended.1, ?_⟩
    rintro hr
    simp only [Option.some.injEq] at hr
    subst hr
    exact absurd (hfits.ended.1.symm.trans hplace) (by simp)
  constructor
  case free =>
    intro c hc hbusy
    have hfree := h.free c hc hbusy
    rw [Free, hjobs]
    by_cases hpid : c.pid = pid
    · rw [hpid, hworker]
      exact ⟨hjob, rfl⟩
    · rw [hothers c.pid hpid]
      exact hfree
  case unborn =>
    intro pid' hle
    rw [hjobs]
    exact h.unborn pid' hle
  case serves =>
    intro pid' job hjob'
    rw [hjobs] at hjob'
    have hpid : pid' ≠ pid := by
      rintro rfl
      simp [hjob] at hjob'
    exact (h.serves pid' job hjob').keep rfl (hothers pid' hpid) (Nat.le_refl _)
  case attends =>
    intro r' pid' hactive hhand
    have hattends := h.attends r' pid' hactive (by simp)
    by_cases hpid : pid' = pid
    · exact absurd (congrArg some (hinv.assigned.one r r' pid hplace (hpid ▸ hactive))) hhand
    · exact hattends.keep rfl (hothers pid' hpid) (Nat.le_refl _)
  case unsent => exact fun r' hr' => (h.unsent r' hr').keep rfl (Nat.le_refl _)
  case promised =>
    exact fun r' result notify hmem => hfits r' result (h.promised r' result notify hmem)
  case results => exact fun r' result hr' => hfits r' result (h.results r' result hr')
  case written => exact h.written

theorem answered_eq (st : AioForkState) (map : Bytes) (ret : RwRet) : (answered st map ret).1 =
    { st with data := (answered st map ret).1.data, readBytes := (answered st map ret).1.readBytes } := by
  rw [answered]
  split
  · split <;> rfl
  · rfl

/-- An answer that announces more than was asked for is not copied, and neither is an error. -/
theorem answered_data {st : AioForkState} {worker : Worker} {ret : RwRet} (h : st.data = st.original)
    (hanswers : Answers worker st ret) :
    ((answered st worker.map ret).2.delivers st.cmd = true →
      (answered st worker.map ret).2.announces st.readBytes.length ∧ st.readBytes.length ≤ st.n ∧
      (answered st worker.map ret).1.data = fill st.readBytes st.original) ∧
    ((answered st worker.map ret).2.delivers st.cmd = false →
      (answered st worker.map ret).1.data = st.original) ∧
    (answered st worker.map ret).1.readBytes = st.readBytes := by
  rw [answered]
  split
  · rename_i hread
    obtain ⟨hcmd, hnonneg⟩ := hread
    split
    · exact ⟨by simp [Result.delivers], fun _ => h, rfl⟩
    · rename_i hfits
      obtain ⟨hsize, hholds⟩ := hanswers hcmd hnonneg (by omega)
      have hlength : ret.size.toNat = st.readBytes.length := by omega
      refine ⟨fun _ => ⟨hsize, by omega, ?_⟩, ?_, rfl⟩
      · rw [hlength, h]
        exact congrArg (fill · st.original) hholds
      · simp [Result.delivers, hcmd, hnonneg]
  · rename_i hread
    refine ⟨?_, fun _ => h, rfl⟩
    intro hdelivers
    simp only [Result.delivers, Bool.and_eq_true, beq_iff_eq, decide_eq_true_eq] at hdelivers
    exact absurd hdelivers hread

/-- What was read for the request is copied before its helper is let go. -/
theorem Mapped.receiveReply (h : s.Mapped none) (hinv : s.Inv False none)
    (hplace : s.place r = .active pid) {ret : RwRet} (hreply : (s.workers pid).reply = some ret) :
    (s.receiveReply r pid ret).Mapped none := by
  have hattends := h.attends r pid hplace (by simp)
  have hanswers : (s.workers pid).job = none ∧ Answers (s.workers pid) (s.reqs r) ret := by
    rcases hattends.works with ⟨job, hjob, -⟩ | ⟨hjob, ret', hreply', hanswers⟩
    · simp [(h.serves pid job hjob).alone] at hreply
    · rw [hreply, Option.some.injEq] at hreply'
      exact ⟨hjob, hreply' ▸ hanswers⟩
  obtain ⟨hjob, hanswers⟩ := hanswers
  have hnojob : ∀ pid' job, ((s.setWorker pid fun worker =>
      { worker with reply := none }).workers pid').job = some job → job.req ≠ r := by
    intro pid' job hjob' hr
    have hjob'' : (s.workers pid').job = some job := by
      simp only [Share.setWorker] at hjob'
      split at hjob' <;> exact hjob'
    have hsent := (h.serves pid' job hjob'').sent
    rw [hr, hattends.sent, Option.some.injEq] at hsent
    rw [← hsent, hjob] at hjob''
    simp at hjob''
  have hread := h.readReply hinv hplace hjob
  have hcopied := hread.setData (f := fun st => (answered st (s.workers pid).map ret).1)
    (fun st => answered_eq st _ _)
    (show s.place r ≠ .queued by simp [hplace]) hnojob
  have hreq : ((s.setWorker pid fun worker => { worker with reply := none }).setReq r
      fun st => (answered st (s.workers pid).map ret).1).reqs r =
        (answered (s.reqs r) (s.workers pid).map ret).1 := if_pos rfl
  have hsame := answered_eq (s.reqs r) (s.workers pid).map ret
  have hdata := answered_data hattends.untouched hanswers
  rw [Share.receiveReply]
  have hactive : ((s.setWorker pid fun worker => { worker with reply := none }).setReq r
      fun st => (answered st (s.workers pid).map ret).1).place r = .active pid := by
    rw [Share.place, hreq, hsame]
    exact hplace
  refine hcopied.release hactive ?_ ?_ ?_
  · simp
  · intro _
    simp [Free, Share.setReq, Share.setWorker, hjob]
  · intro r' result' notify' hmem
    obtain ⟨rfl, rfl⟩ := mem_complete hmem
    refine ⟨rfl, hattends.known, ?_, ?_⟩
    · rw [hreq, hdata.2.2,
        show (answered (s.reqs r') (s.workers pid).map ret).1.cmd = (s.reqs r').cmd by rw [hsame],
        show (answered (s.reqs r') (s.workers pid).map ret).1.n = (s.reqs r').n by rw [hsame],
        show (answered (s.reqs r') (s.workers pid).map ret).1.original = (s.reqs r').original by
          rw [hsame]]
      intro hdelivers
      obtain ⟨hannounces, hsize, hfilled⟩ := hdata.1 hdelivers
      exact ⟨hannounces, hsize, hfilled, hnojob⟩
    · rw [hreq,
        show (answered (s.reqs r') (s.workers pid).map ret).1.cmd = (s.reqs r').cmd by rw [hsame],
        show (answered (s.reqs r') (s.workers pid).map ret).1.original = (s.reqs r').original by
          rw [hsame]]
      exact hdata.2.1

theorem Mapped.aioForkDone (h : s.Mapped none) (hinv : s.Inv False none) (r : ReqId)
    (received : Except Errno Unit) : (s.aioForkDone r received).Mapped none := by
  cases hplace : (s.reqs r).place with
  | idle => simpa [Share.aioForkDone, hplace] using h
  | queued => simpa [Share.aioForkDone, hplace] using h
  | active pid =>
    cases received with
    | error e =>
      have hattends := h.attends r pid hplace (by simp)
      have hreleased : (s.aioForkReleaseChild r true [.complete r (.error e) true]).Mapped none := by
        apply h.release hplace (by simp) (by simp)
        intro r' result' notify' hmem
        obtain ⟨rfl, rfl⟩ := mem_complete hmem
        exact ⟨rfl, hattends.delivered_error e⟩
      simpa [Share.aioForkDone, hplace] using hreleased
    | ok received =>
      cases hreply : (s.workers pid).reply with
      | none => simpa [Share.aioForkDone, hplace, hreply] using h
      | some ret =>
        simpa [Share.aioForkDone, hplace, hreply] using h.receiveReply hinv hplace hreply

theorem Mapped.aioChildCleanup (h : s.Mapped none) : (s.aioChildCleanup luck).Mapped none := by
  refine h.of_eq rfl rfl rfl rfl rfl ?_ ?_
  · intro child hchild hbusy
    simp only [Share.aioChildCleanup, List.mem_map, List.mem_filter] at hchild
    obtain ⟨child', ⟨hchild', -⟩, rfl⟩ := hchild
    have := h.free child' hchild'
    grind
  · exact fun _ _ _ hmem => hmem

theorem Mapped.resume (h : s.Mapped none) (hinv : s.Inv False none) : (s.resume luck).Mapped none := by
  rw [Share.resume]
  cases hstack : s.stack with
  | nil => exact h
  | cons frame rest =>
    cases frame with
    | schedule => exact h.aioForkSchedulePending hinv
    | complete r result notify =>
      have hfits := h.promised r result notify (by simp [hstack])
      have hcompleted : (s.pop.teventReqFinish r result).Mapped none :=
        h.pop.teventReqFinish (by simp) hfits.ended.1
          (hfits.toDelivered.same ⟨fun _ => rfl, rfl, rfl⟩)
      cases notify with
      | true => exact hcompleted.pushActions _
      | false => exact hcompleted.giveBack
    | actions script =>
      cases script with
      | nil => exact h.pop
      | cons action script =>
        exact (h.pop.pushActions script).perform ((hinv.popActions hstack).pushActions script) action

/-- A helper fills its mapping for the request that it was sent. -/
theorem Mapped.reads (h : s.Mapped none) {job : RwCmd} {bytes : Bytes}
    (hjob : (s.workers pid).job = some job) (hcmd : job.cmd = .read) (hsize : bytes.length ≤ job.n)
    (hworker : s'.workers pid = { s.workers pid with map := fill bytes (s.workers pid).map })
    (hothers : ∀ pid' ≠ pid, s'.workers pid' = s.workers pid')
    (hreq : s'.reqs job.req = { s.reqs job.req with readBytes := bytes })
    (hreqs : ∀ r ≠ job.req, s'.reqs r = s.reqs r) (hchildren : s'.children = s.children)
    (hpid : s'.nextPid = s.nextPid) (hnext : s'.nextReq = s.nextReq) (hstack : s'.stack = s.stack)
    (hwritten : s'.written = s.written) : s'.Mapped none := by
  have hserves := h.serves pid job hjob
  have hnext' := Nat.le_of_eq hnext.symm
  have hplace : ∀ r, s'.place r = s.place r := by
    intro r
    by_cases hr : r = job.req
    · rw [Share.place, hr, hreq]
      rfl
    · rw [Share.place, hreqs r hr]
      rfl
  have hjobs : ∀ pid', (s'.workers pid').job = (s.workers pid').job := by
    intro pid'
    by_cases hp : pid' = pid
    · rw [hp, hworker]
    · rw [hothers pid' hp]
  have hreplies : ∀ pid', (s'.workers pid').reply = (s.workers pid').reply := by
    intro pid'
    by_cases hp : pid' = pid
    · rw [hp, hworker]
    · rw [hothers pid' hp]
  have hfits : ∀ r result, s.Fits none r result → s'.Fits none r result := by
    intro r result hfits
    have hover : s'.place r = .idle ∧ (none : Option ReqId) ≠ some r := ⟨hplace r ▸ hfits.ended.1, by simp⟩
    by_cases hr : r = job.req
    · subst hr
      refine ⟨⟨Nat.lt_of_lt_of_le hfits.known hnext', ?_, ?_⟩, hover⟩
      · rw [hreq]
        intro hdelivers
        exact absurd rfl ((hfits.delivered hdelivers).2.2.2 pid job hjob)
      · rw [hreq]
        exact hfits.untouched
    · exact hfits.keep (congrArg _ (hreqs r hr)) (fun pid' _ hjob' _ => ⟨pid', hjobs pid' ▸ hjob'⟩)
        hnext' hover
  constructor
  case free =>
    intro c hc hbusy
    rw [Free, hjobs, hreplies]
    exact h.free c (hchildren ▸ hc) hbusy
  case unborn =>
    intro pid' hle
    rw [hjobs]
    exact h.unborn pid' (hpid ▸ hle)
  case serves =>
    intro pid' job' hjob'
    rw [hjobs] at hjob'
    by_cases hp : pid' = pid
    · subst hp
      obtain rfl : job = job' := by simpa using hjob.symm.trans hjob'
      constructor
      case alone => rw [hreplies]; exact hserves.alone
      case known => exact Nat.lt_of_lt_of_le hserves.known hnext'
      case sent => rw [hreq]; exact hserves.sent
      case cmd => rw [hreq]; exact hserves.cmd
      case size => rw [hreq]; exact hserves.size
      case reads =>
        rw [hreq, hworker]
        exact ⟨holds_fill bytes _, hserves.size ▸ hsize⟩
      case writes => simp [hcmd, CmdType.writes]
    · have hserves' := h.serves pid' job' hjob'
      have hr : job'.req ≠ job.req := by
        intro hr
        have hsent := hserves'.sent
        rw [hr, hserves.sent, Option.some.injEq] at hsent
        exact hp hsent.symm
      exact hserves'.keep (congrArg _ (hreqs _ hr)) (hothers pid' hp) hnext'
  case attends =>
    intro r pid' hactive hhand
    have hattends := h.attends r pid' (hplace r ▸ hactive) hhand
    by_cases hp : pid' = pid
    · subst hp
      obtain ⟨job', hjob', rfl⟩ | ⟨hnone, -⟩ := hattends.works
      · obtain rfl : job = job' := by simpa using hjob.symm.trans hjob'
        exact ⟨Nat.lt_of_lt_of_le hattends.known hnext', by rw [hreq]; exact hattends.sent,
          by rw [hreq]; exact hattends.untouched, .inl ⟨job, by rw [hjobs]; exact hjob, rfl⟩⟩
      · simp [hjob] at hnone
    · have hr : r ≠ job.req := by
        rintro rfl
        have hsent := hattends.sent
        rw [hserves.sent, Option.some.injEq] at hsent
        exact hp hsent.symm
      exact hattends.keep (congrArg _ (hreqs r hr)) (hothers pid' hp) hnext'
  case unsent =>
    intro r hr
    have hunsent := h.unsent r (hplace r ▸ hr)
    exact hunsent.keep (congrArg _ (hreqs r (hunsent.no_job h hjob).symm)) hnext'
  case promised =>
    exact fun r result notify hmem => hfits r result (h.promised r result notify (hstack ▸ hmem))
  case results =>
    intro r result hr
    apply hfits r result (h.results r result _)
    by_cases hj : r = job.req
    · rw [hj, hreq] at hr
      rw [hj]
      exact hr
    · rwa [hreqs r hj] at hr
  case written =>
    intro r bytes' hmem
    have := h.written r bytes' (hwritten ▸ hmem)
    by_cases hr : r = job.req
    · subst hr
      rw [hreq, hnext]
      exact this
    · rw [hreqs r hr, hnext]
      exact this

/-- A helper answers, and its mapping stays as it is until the answer has been read. -/
theorem Mapped.replies (h : s.Mapped none) {job : RwCmd} {ret : RwRet}
    (hjob : (s.workers pid).job = some job) (hhonest : honest (s.reqs job.req) job ret = true) :
    (s.setWorker pid fun worker => { worker with job := none, reply := some ret }).Mapped none := by
  have hserves := h.serves pid job hjob
  have hothers : ∀ pid' ≠ pid, (s.setWorker pid fun worker =>
      { worker with job := none, reply := some ret }).workers pid' = s.workers pid' :=
    fun _ hne => if_neg hne
  have hworker : (s.setWorker pid fun worker =>
      { worker with job := none, reply := some ret }).workers pid =
        { s.workers pid with job := none, reply := some ret } := if_pos rfl
  have hjobs : ∀ pid' job', ((s.setWorker pid fun worker =>
      { worker with job := none, reply := some ret }).workers pid').job = some job' →
        pid' ≠ pid ∧ (s.workers pid').job = some job' := by
    intro pid' job' hjob'
    by_cases hp : pid' = pid
    · simp [hp, hworker] at hjob'
    · exact ⟨hp, hothers pid' hp ▸ hjob'⟩
  have hfits : ∀ r result, s.Fits none r result → (s.setWorker pid fun worker =>
      { worker with job := none, reply := some ret }).Fits none r result :=
    fun r result hfits => hfits.keep rfl (fun pid' job' hjob' _ => ⟨pid', (hjobs pid' job' hjob').2⟩)
      (Nat.le_refl _) hfits.ended
  constructor
  case free =>
    intro c hc hbusy
    have hfree := h.free c hc hbusy
    have hp : c.pid ≠ pid := by
      intro hp
      simp [hp, Free, hjob] at hfree
    rw [Free, hothers c.pid hp]
    exact hfree
  case unborn =>
    intro pid' hle
    have hnone := h.unborn pid' hle
    have hp : pid' ≠ pid := by
      rintro rfl
      simp [hjob] at hnone
    rw [hothers pid' hp]
    exact hnone
  case serves =>
    intro pid' job' hjob'
    obtain ⟨hp, hold⟩ := hjobs pid' job' hjob'
    exact (h.serves pid' job' hold).keep rfl (hothers pid' hp) (Nat.le_refl _)
  case attends =>
    intro r pid' hactive hhand
    have hattends := h.attends r pid' hactive hhand
    by_cases hp : pid' = pid
    · subst hp
      obtain ⟨job', hjob', rfl⟩ | ⟨hnone, -⟩ := hattends.works
      · obtain rfl : job = job' := by simpa using hjob.symm.trans hjob'
        refine ⟨hattends.known, hattends.sent, hattends.untouched, .inr ⟨by rw [hworker], ret, ?_, ?_⟩⟩
        · rw [hworker]
        · intro hcmd hnonneg hsize
          have hread : job.cmd = .read := hserves.cmd.trans hcmd
          have hn := hserves.size
          have hexact : ret.size = (s.reqs job.req).readBytes.length := by
            simp only [honest, hread, Bool.or_eq_true, decide_eq_true_eq] at hhonest
            change ret.size ≤ ((s.reqs job.req).n : Int) at hsize
            grind
          refine ⟨hexact, ?_⟩
          rw [Holds, hworker]
          exact hserves.reads.1
      · simp [hjob] at hnone
    · exact hattends.keep rfl (hothers pid' hp) (Nat.le_refl _)
  case unsent => exact fun r hr => (h.unsent r hr).keep rfl (Nat.le_refl _)
  case promised => exact fun r result notify hmem => hfits r result (h.promised r result notify hmem)
  case results => exact fun r result hr => hfits r result (h.results r result hr)
  case written => exact h.written

/-- A helper writes what is in its mapping. -/
theorem Mapped.writes (h : s.Mapped none) {job : RwCmd} (hjob : (s.workers pid).job = some job)
    (hwrites : job.cmd.writes) :
    { s with written := s.written ++ [(job.req, (s.workers pid).map.take job.n)] }.Mapped none := by
  have hserves := h.serves pid job hjob
  have hfits : ∀ r result, s.Fits none r result →
      { s with written := s.written ++ [(job.req, (s.workers pid).map.take job.n)] }.Fits none r
        result :=
    fun r result hfits => hfits.keep rfl (fun pid' _ hjob' _ => ⟨pid', hjob'⟩) (Nat.le_refl _) hfits.ended
  constructor
  case free => exact h.free
  case unborn => exact h.unborn
  case serves => exact fun pid' job' hjob' => (h.serves pid' job' hjob').keep rfl rfl (Nat.le_refl _)
  case attends =>
    exact fun r pid' hactive hhand => (h.attends r pid' hactive hhand).keep rfl rfl (Nat.le_refl _)
  case unsent => exact fun r hr => (h.unsent r hr).keep rfl (Nat.le_refl _)
  case promised => exact fun r result notify hmem => hfits r result (h.promised r result notify hmem)
  case results => exact fun r result hr => hfits r result (h.results r result hr)
  case written =>
    intro r bytes hmem
    rcases List.mem_append.mp hmem with hold | hnew
    · exact h.written r bytes hold
    · simp only [List.mem_singleton, Prod.mk.injEq] at hnew
      obtain ⟨rfl, rfl⟩ := hnew
      refine ⟨hserves.known, fun hlength => ?_⟩
      rw [hserves.size, ← hlength]
      exact hserves.writes hwrites hlength

theorem Mapped.work (h : s.Mapped none) (pid : Pid) (work : Work) : (s.work pid work).Mapped none := by
  rw [Share.work]
  cases hjob : (s.workers pid).job with
  | none => exact h
  | some job =>
    cases work with
    | reads bytes =>
      show (if job.cmd = .read ∧ bytes.length ≤ job.n then _ else s : Share).Mapped none
      split
      · rename_i hread
        exact h.reads hjob hread.1 hread.2 (if_pos rfl) (fun _ hp => if_neg hp) (if_pos rfl)
          (fun _ hr => if_neg hr) rfl rfl rfl rfl rfl
      · exact h
    | writes =>
      show (if job.cmd.writes then _ else s : Share).Mapped none
      split
      · rename_i hwrites
        exact h.writes hjob hwrites
      · exact h
    | replies ret =>
      show (if honest (s.reqs job.req) job ret then _ else s : Share).Mapped none
      split
      · rename_i hhonest
        exact h.replies hjob hhonest
      · exact h

/-! ## The server leaves a helper alone that has a command -/

def Spares (s s' : Share) : Prop :=
  ∀ pid, (s.workers pid).job ≠ none → s'.workers pid = s.workers pid

theorem spares_of_workers (h : s'.workers = s.workers) : Spares s s' := fun pid _ => congrFun h pid

theorem Spares.trans {s'' : Share} (h : Spares s s') (h' : Spares s' s'') : Spares s s'' := by
  intro pid hjob
  have hsame := h pid hjob
  rw [← hsame] at hjob
  exact (h' pid hjob).trans hsame

theorem workers_aioForkReleaseChild (failed : Bool) (after : List Frame) :
    (s.aioForkReleaseChild r failed after).workers = s.workers := by
  rw [aioForkReleaseChild]
  split
  · cases failed <;> rfl
  · rfl

theorem workers_aioForkUnqueue : (s.aioForkUnqueue r).workers = s.workers := by
  rw [aioForkUnqueue]
  split <;> rfl

theorem workers_teventReqFinish : (s.teventReqFinish r result).workers = s.workers := by
  rw [Share.teventReqFinish]
  split <;> rfl

theorem workers_aioForkRunSync : (s.aioForkRunSync luck r).workers = s.workers :=
  workers_teventReqFinish

theorem workers_initAioChildren : (s.initAioChildren luck).workers = s.workers := by
  rw [Share.initAioChildren]
  split
  · rfl
  · split
    · rfl
    · split <;> rfl

theorem workers_freeReq : (s.freeReq r).workers = s.workers := by
  rw [Share.freeReq]
  split
  · rfl
  · exact (workers_aioForkReleaseChild _ _).trans workers_aioForkUnqueue

theorem workers_work {pid' : Pid} (hp : pid' ≠ pid) (work : Work) :
    (s.work pid' work).workers pid = s.workers pid := by
  rw [Share.work]
  cases (s.workers pid').job with
  | none => rfl
  | some job =>
    cases work with
    | reads bytes =>
      dsimp only
      split
      · exact if_neg hp.symm
      · rfl
    | writes =>
      dsimp only
      split <;> rfl
    | replies ret =>
      dsimp only
      split
      · exact if_neg hp.symm
      · rfl

/-- Only the helper that the request goes to is concerned. -/
theorem Free.spares_aioForkDispatch (hfree : s.Free pid) (notify : Bool) :
    Spares s (s.aioForkDispatch luck r pid notify).1 := by
  have hoccupied : ∀ pid' ≠ pid, (s.occupy r pid).workers pid' = s.workers pid' := by
    intro pid' hp
    rw [Share.occupy]
    split
    · exact if_neg hp
    · rfl
  intro pid' hjob
  have hp : pid' ≠ pid := fun hp => hjob (hp ▸ hfree.1)
  rw [Share.aioForkDispatch]
  cases luck.writeFd with
  | error e =>
    exact (congrFun (workers_aioForkReleaseChild _ _) pid').trans (hoccupied pid' hp)
  | ok _ =>
    have hsent : ((s.occupy r pid).sendCmd r pid).workers pid' = s.workers pid' :=
      (if_neg hp).trans (hoccupied pid' hp)
    show (if luck.readPacketOk then _ else _ : Share × Bool).1.workers pid' = _
    split
    · exact hsent
    · exact (congrFun (workers_aioForkReleaseChild _ _) pid').trans hsent

theorem Free.spares_dispatchNew (hfree : s.Free pid) : Spares s (s.dispatchNew luck r pid) := by
  rw [Share.dispatchNew]
  split
  · exact (hfree.spares_aioForkDispatch false).trans (spares_of_workers rfl)
  · exact hfree.spares_aioForkDispatch false

theorem Mapped.spares_createAioChild (h : s.Mapped hand) :
    Spares s s.createAioChild ∧ s.createAioChild.Free s.nextPid := by
  refine ⟨?_, by simp [Free, Share.createAioChild]⟩
  intro pid hjob
  have hp : pid ≠ s.nextPid := fun hp => hjob (h.unborn pid (Nat.le_of_eq hp.symm))
  exact if_neg hp

theorem Mapped.spares_submitReq (h : s.Mapped hand) : Spares s (s.submitReq luck r) := by
  have hsync : Spares s ((s.aioForkRunSync luck r).giveBack r) :=
    spares_of_workers workers_aioForkRunSync
  rw [Share.submitReq]
  cases hfind : s.aioForkFindIdleChild with
  | some child =>
    obtain ⟨hchild, hbusy⟩ := findIdleChild_some hfind
    exact (h.free child hchild hbusy).spares_dispatchNew
  | none =>
    show Spares s (if s.maxChildren = 0 ∨ s.numChildren < s.maxChildren then _ else _ : Share)
    split
    · split
      · obtain ⟨hspares, hfree⟩ := h.spares_createAioChild
        exact hspares.trans hfree.spares_dispatchNew
      · exact hsync
    · split
      · exact spares_of_workers rfl
      · exact hsync

theorem Mapped.spares_perform (h : s.Mapped none) (luck : Luck) (action : Action) :
    Spares s (s.perform luck action) := by
  cases action with
  | free r => exact spares_of_workers workers_freeReq
  | submit cmd n offset data =>
    obtain ⟨hnew, -, -⟩ := h.createReq cmd n offset data
    obtain ⟨hinit, -, -⟩ := hnew.initAioChildren luck
    have hcreated : Spares s ((s.createReq cmd n offset data).initAioChildren luck) :=
      spares_of_workers workers_initAioChildren
    show Spares s (s.aioForkSend luck cmd n offset data)
    rw [Share.aioForkSend]
    show Spares s (if cmd ≠ .fsync ∧ aioMapSize < n then _ else _ : Share)
    split
    · exact spares_of_workers workers_teventReqFinish
    · show Spares s (if ((s.createReq cmd n offset data).initAioChildren luck).cleanupEvent then _
        else _ : Share)
      split
      · exact hcreated.trans hinit.spares_submitReq
      · exact hcreated.trans (spares_of_workers workers_teventReqFinish)

theorem Mapped.spares_aioForkSchedulePending (h : s.Mapped none) :
    Spares s (s.aioForkSchedulePending luck) := by
  have hstarted : ∀ s : Share, ∀ r, (s.startPending r).workers = s.workers :=
    fun _ _ => workers_aioForkUnqueue
  have hfree' : ∀ s : Share, ∀ r pid, s.Free pid → (s.startPending r).Free pid := by
    intro s r pid hfree
    rw [Free, hstarted]
    exact hfree
  rw [Share.aioForkSchedulePending]
  cases s.pending with
  | nil => exact spares_of_workers rfl
  | cons r others =>
    cases hfind : s.aioForkFindIdleChild with
    | some child =>
      obtain ⟨hchild, hbusy⟩ := findIdleChild_some hfind
      exact (spares_of_workers (hstarted s r)).trans
        ((hfree' s r _ (h.free child hchild hbusy)).spares_aioForkDispatch true)
    | none =>
      show Spares s (if s.maxChildren ≠ 0 ∧ s.maxChildren ≤ s.numChildren then _ else _ : Share)
      split
      · exact spares_of_workers rfl
      · split
        · obtain ⟨hspares, hfree⟩ := h.spares_createAioChild
          exact (hspares.trans (spares_of_workers (hstarted _ r))).trans
            ((hfree' _ r _ hfree).spares_aioForkDispatch true)
        · exact spares_of_workers (workers_aioForkRunSync.trans (hstarted s r))

theorem Mapped.spares_aioForkDone (h : s.Mapped none) (r : ReqId) (received : Except Errno Unit) :
    Spares s (s.aioForkDone r received) := by
  cases hplace : (s.reqs r).place with
  | idle => simpa [Share.aioForkDone, hplace] using spares_of_workers (s := s) rfl
  | queued => simpa [Share.aioForkDone, hplace] using spares_of_workers (s := s) rfl
  | active pid =>
    cases received with
    | error e =>
      have hreleased : Spares s (s.aioForkReleaseChild r true [.complete r (.error e) true]) :=
        spares_of_workers (workers_aioForkReleaseChild _ _)
      simpa [Share.aioForkDone, hplace] using hreleased
    | ok received =>
      cases hreply : (s.workers pid).reply with
      | none => simpa [Share.aioForkDone, hplace, hreply] using spares_of_workers (s := s) rfl
      | some ret =>
        have hreceived : Spares s (s.receiveReply r pid ret) := by
          intro pid' hjob
          rw [Share.receiveReply]
          rw [workers_aioForkReleaseChild]
          refine if_neg fun hp => ?_
          subst hp
          obtain ⟨job, hjob'⟩ := Option.ne_none_iff_exists'.mp hjob
          simp [(h.serves pid' job hjob').alone] at hreply
        simpa [Share.aioForkDone, hplace, hreply] using hreceived

theorem Mapped.spares_resume (h : s.Mapped none) : Spares s (s.resume luck) := by
  rw [Share.resume]
  cases hstack : s.stack with
  | nil => exact spares_of_workers rfl
  | cons frame rest =>
    cases frame with
    | schedule => exact h.spares_aioForkSchedulePending
    | complete r result notify =>
      have hcompleted : (s.pop.teventReqFinish r result).workers = s.workers := workers_teventReqFinish
      cases notify with
      | true => exact spares_of_workers hcompleted
      | false => exact spares_of_workers hcompleted
    | actions script =>
      cases script with
      | nil => exact spares_of_workers rfl
      | cons action script =>
        have hspares := (h.pop.pushActions script).spares_perform luck action
        exact (spares_of_workers rfl).trans hspares

/-! ## Runs -/

variable {allow : Share → Luck → Action → Prop} {maxChildren : Nat}

/-- One step keeps the mappings apart. -/
theorem Mapped.step (h : s.Mapped none) (hinv : s.Inv False none) (hstep : Step allow s s') :
    s'.Mapped none := by
  cases hstep with
  | act luck action _ _ _ => exact h.perform hinv action
  | done r received _ _ => exact h.aioForkDone hinv r received
  | cleanup luck _ _ => exact h.aioChildCleanup
  | resume luck _ _ _ => exact h.resume hinv
  | work pid work _ => exact h.work pid work

theorem mapped_connected (maxChildren : Nat) : (connected maxChildren).Mapped none where
  free := by simp [connected]
  unborn pid _ := rfl
  serves pid job hjob := by simp [connected] at hjob
  attends r pid hplace _ := by simp [connected, place, unusedReq] at hplace
  unsent r hr := by simp [connected, place, unusedReq] at hr
  promised r result notify hmem := by simp [connected] at hmem
  results r result hr := by simp [connected, unusedReq] at hr
  written r bytes hmem := by simp [connected] at hmem

theorem Reachable.mapped (h : Reachable allow maxChildren s) : s.Mapped none := by
  induction h with
  | refl => exact mapped_connected maxChildren
  | tail hreach hstep ih => exact ih.step (Reachable.inv hreach).1 hstep

/-- No data of one request gets to another: a read that succeeds has what its helper read for it at the
start of its buffer and nothing else, a write writes its own data, and a mapping is not changed while its
helper has a command, but by that helper. -/
structure Apart (allow : Share → Luck → Action → Prop) (s : Share) : Prop where
  reads : ∀ r ret error, (s.reqs r).cmd = .read → (s.reqs r).result = some (.done ret error) → 0 ≤ ret →
    ret = (s.reqs r).readBytes.length ∧ (s.reqs r).readBytes.length ≤ (s.reqs r).n ∧
    (s.reqs r).data = fill (s.reqs r).readBytes (s.reqs r).original
  others : ∀ r result, (s.reqs r).result = some result → result.delivers (s.reqs r).cmd = false →
    (s.reqs r).data = (s.reqs r).original
  waiting : ∀ r, s.place r ≠ .idle → (s.reqs r).data = (s.reqs r).original
  writes : ∀ r bytes, (r, bytes) ∈ s.written → (s.reqs r).original.length = (s.reqs r).n →
    bytes = (s.reqs r).original
  sent : ∀ pid job, (s.workers pid).job = some job → (s.reqs job.req).sentTo = some pid ∧
    job.cmd = (s.reqs job.req).cmd ∧ job.n = (s.reqs job.req).n
  kept : ∀ s', Step allow s s' → ∀ pid, (s.workers pid).job ≠ none →
    s'.workers pid = s.workers pid ∨ ∃ work, s' = s.work pid work

theorem mappings_apart (h : Reachable allow maxChildren s) : s.Apart allow := by
  have hmapped := h.mapped
  constructor
  case reads =>
    intro r ret error hcmd hresult hret
    have hfits := hmapped.results r _ hresult
    obtain ⟨hannounces, hsize, hfilled, -⟩ := hfits.delivered (by simp [Result.delivers, hcmd, hret])
    exact ⟨hannounces, hsize, hfilled⟩
  case others => exact fun r result hresult => (hmapped.results r result hresult).untouched
  case waiting =>
    intro r hr
    cases hplace : s.place r with
    | idle => exact absurd hplace hr
    | queued => exact (hmapped.unsent r hplace).untouched
    | active pid => exact (hmapped.attends r pid hplace (by simp)).untouched
  case writes => exact fun r bytes hmem => (hmapped.written r bytes hmem).2
  case sent =>
    intro pid job hjob
    have hserves := hmapped.serves pid job hjob
    exact ⟨hserves.sent, hserves.cmd, hserves.size⟩
  case kept =>
    intro s' hstep pid hjob
    cases hstep with
    | act luck action _ _ _ => exact .inl (hmapped.spares_perform luck action pid hjob)
    | done r received _ _ => exact .inl (hmapped.spares_aioForkDone r received pid hjob)
    | cleanup luck _ _ => exact .inl rfl
    | resume luck _ _ _ => exact .inl (hmapped.spares_resume pid hjob)
    | work pid' work _ =>
      by_cases hp : pid' = pid
      · exact .inr ⟨work, hp ▸ rfl⟩
      · exact .inl (workers_work hp work)

/-- A read of three bytes, of which the file has two. -/
def shortRead : Share :=
  ((((connected 1).perform frees (.submit .read 3 0 [0, 0, 0])).work 0 (.reads [7, 8])).work 0
    (.replies ⟨2, 0⟩)).aioForkDone 0 (.ok ())

theorem shortRead_apart : ((shortRead.resume frees).resume frees).reqs 0 =
    ⟨.read, 3, 0, [7, 8, 0], .idle, 1, some (.done 2 0), true, false, [0, 0, 0], [7, 8], some 0⟩ ∧
    ((shortRead.resume frees).resume frees).Apart fun _ _ _ => True := by
  have hread : Reachable (fun _ _ _ => True) 1 shortRead :=
    (((Relation.ReflTransGen.refl.tail (.act frees _ rfl rfl trivial)).tail (.work 0 _ rfl)).tail
      (.work 0 _ rfl)).tail (.done 0 _ rfl rfl)
  have hresumed := (hread.tail (.resume frees (by decide +kernel) (by decide +kernel)
    fun _ _ => trivial)).tail (.resume frees (by decide +kernel) (by decide +kernel) fun _ _ => trivial)
  exact ⟨by decide +kernel, mappings_apart hresumed⟩

end Keep

end Share

end TimeCapsule.AioFork
