import Mathlib.Logic.Relation
import TimeCapsule.Lib.Temporal
import TimeCapsule.AioFork.Invariant

/-!
# Every request completes

What a step does to the requests that have been submitted before it, and from this that every request
leaves the queue and completes, as long as helpers answer and callbacks return.
-/

namespace TimeCapsule.AioFork

open Lib

namespace Share

section Steps

variable {s s' : Share} {r r' : ReqId} {pid : Pid} {luck : Luck}
  {allow : Share → Luck → Action → Prop}

/-- The number of requests that are queued in front of one. -/
def ahead (s : Share) (r : ReqId) : Nat := s.pending.idxOf r

/-- Nothing but one request has changed, and no other request has lost its place in the queue. -/
structure Touches (r : ReqId) (s s' : Share) : Prop where
  other : ∀ r' ≠ r, s'.reqs r' = s.reqs r'
  queue : ∀ r' ≠ r, r' ∈ s.pending → r' ∈ s'.pending ∧ s'.ahead r' ≤ s.ahead r'
  nextReq : s.nextReq ≤ s'.nextReq
  maxChildren : s'.maxChildren = s.maxChildren

theorem Touches.refl (r : ReqId) (s : Share) : Touches r s s :=
  ⟨fun _ _ => rfl, fun _ _ h => ⟨h, Nat.le_refl _⟩, Nat.le_refl _, rfl⟩

theorem Touches.trans {s'' : Share} (h : Touches r s s') (h' : Touches r s' s'') :
    Touches r s s'' where
  other r' hr' := (h'.other r' hr').trans (h.other r' hr')
  queue r' hr' hmem := by
    obtain ⟨hmem', hle⟩ := h.queue r' hr' hmem
    obtain ⟨hmem'', hle'⟩ := h'.queue r' hr' hmem'
    exact ⟨hmem'', hle'.trans hle⟩
  nextReq := h.nextReq.trans h'.nextReq
  maxChildren := h'.maxChildren.trans h.maxChildren

/-- A change that leaves the queue alone. -/
theorem touches_of_pending (hpending : s'.pending = s.pending) (hnext : s'.nextReq = s.nextReq)
    (hmax : s'.maxChildren = s.maxChildren) (hother : ∀ r' ≠ r, s'.reqs r' = s.reqs r') :
    Touches r s s' where
  other := hother
  queue r' _ hmem := by
    rw [ahead, ahead, hpending]
    exact ⟨hmem, Nat.le_refl _⟩
  nextReq := Nat.le_of_eq hnext.symm
  maxChildren := hmax

theorem touches_setReq (f : AioForkState → AioForkState) : Touches r s (s.setReq r f) :=
  touches_of_pending rfl rfl rfl fun _ hr' => if_neg hr'

theorem idxOf_erase_le {l : List ReqId} (hne : r' ≠ r) : (l.erase r).idxOf r' ≤ l.idxOf r' := by
  induction l with
  | nil => exact Nat.le_refl _
  | cons x l ih =>
    by_cases hx : x = r
    · simp [hx, Ne.symm hne]
    · by_cases hx' : x = r' <;> simp [hx, hx', hne, ih]

theorem touches_aioForkUnqueue : Touches r s (s.aioForkUnqueue r) := by
  rw [aioForkUnqueue]
  split
  · exact .refl r s
  · exact
      { other := fun _ hr' => if_neg hr'
        queue := fun r' hr' hmem => ⟨(List.mem_erase_of_ne hr').mpr hmem, idxOf_erase_le hr'⟩
        nextReq := Nat.le_refl _
        maxChildren := rfl }

theorem touches_startPending : Touches r s (s.startPending r) :=
  touches_aioForkUnqueue.trans (touches_of_pending rfl rfl rfl fun _ _ => rfl)

theorem touches_aioForkReleaseChild (failed : Bool) (after : List Frame) :
    Touches r s (s.aioForkReleaseChild r failed after) := by
  rw [aioForkReleaseChild]
  split
  · cases failed <;> exact touches_of_pending rfl rfl rfl fun _ hr' => if_neg hr'
  · exact .refl r s

theorem touches_occupy : Touches r s (s.occupy r pid) := by
  rw [occupy]
  split <;> exact touches_of_pending rfl rfl rfl fun _ hr' => if_neg hr'

theorem touches_aioForkDispatch (notify : Bool) :
    Touches r s (s.aioForkDispatch luck r pid notify).1 := by
  rw [aioForkDispatch]
  cases luck.writeFd with
  | error e => exact touches_occupy.trans (touches_aioForkReleaseChild _ _)
  | ok _ =>
    have hsent : Touches r s ((s.occupy r pid).sendCmd r pid) :=
      touches_occupy.trans (touches_of_pending rfl rfl rfl fun _ hr' => if_neg hr')
    show Touches r s (if luck.readPacketOk then _ else _ : Share × Bool).1
    split
    · exact hsent
    · exact hsent.trans (touches_aioForkReleaseChild _ _)

theorem touches_teventReqFinish (result : Result) : Touches r s (s.teventReqFinish r result) := by
  rw [teventReqFinish]
  split
  · exact touches_of_pending rfl rfl rfl fun _ _ => rfl
  · exact touches_setReq _

theorem touches_aioForkRunSync : Touches r s (s.aioForkRunSync luck r) :=
  (touches_setReq _).trans (touches_teventReqFinish _)

theorem touches_freeReq : Touches r s (s.freeReq r) := by
  rw [freeReq]
  split
  · exact .refl r s
  · exact (touches_aioForkUnqueue.trans (touches_aioForkReleaseChild _ _)).trans (touches_setReq _)

theorem touches_createAioChild : Touches r s s.createAioChild :=
  touches_of_pending rfl rfl rfl fun _ _ => rfl

theorem touches_dispatchNew : Touches r s (s.dispatchNew luck r pid) := by
  rw [dispatchNew]
  split
  · exact (touches_aioForkDispatch _).trans (touches_setReq _)
  · exact touches_aioForkDispatch _

theorem touches_submitReq : Touches r s (s.submitReq luck r) := by
  have hsync : Touches r s ((s.aioForkRunSync luck r).giveBack r) :=
    touches_aioForkRunSync.trans (touches_setReq _)
  rw [submitReq]
  cases s.aioForkFindIdleChild with
  | some child => exact touches_dispatchNew
  | none =>
    show Touches r s (if s.maxChildren = 0 ∨ s.numChildren < s.maxChildren then _ else _ : Share)
    split
    · split
      · exact touches_createAioChild.trans touches_dispatchNew
      · exact hsync
    · split
      · have hqueued : Touches r s (s.enqueue r) :=
          { other := fun _ hr' => if_neg hr'
            queue := fun r' _ hmem =>
              ⟨List.mem_append_left _ hmem, Nat.le_of_eq (List.idxOf_append_of_mem hmem)⟩
            nextReq := Nat.le_refl _
            maxChildren := rfl }
        exact hqueued.trans (touches_setReq _)
      · exact hsync

theorem touches_aioForkSend (cmd : CmdType) (n offset : Nat) (data : Bytes) :
    Touches s.nextReq s (s.aioForkSend luck cmd n offset data) := by
  have hnew : Touches s.nextReq s (s.createReq cmd n offset data) :=
    { other := fun _ hr' => if_neg hr'
      queue := fun _ _ hmem => ⟨hmem, Nat.le_refl _⟩
      nextReq := Nat.le_succ _
      maxChildren := rfl }
  have hinit : Touches s.nextReq s ((s.createReq cmd n offset data).initAioChildren luck) := by
    apply hnew.trans
    rw [initAioChildren]
    split
    · exact .refl _ _
    · split
      · exact touches_of_pending rfl rfl rfl fun _ _ => rfl
      · split <;> exact touches_of_pending rfl rfl rfl fun _ _ => rfl
  rw [aioForkSend]
  show Touches s.nextReq s (if cmd ≠ .fsync ∧ aioMapSize < n then _ else _ : Share)
  split
  · exact hnew.trans ((touches_teventReqFinish _).trans (touches_setReq _))
  · show Touches s.nextReq s (if ((s.createReq cmd n offset data).initAioChildren luck).cleanupEvent
      then _ else _ : Share)
    split
    · exact hinit.trans touches_submitReq
    · exact hinit.trans ((touches_teventReqFinish _).trans (touches_setReq _))

theorem touches_aioForkDone (received : Except Errno Unit) :
    Touches r s (s.aioForkDone r received) := by
  cases hplace : (s.reqs r).place with
  | idle => simpa [aioForkDone, hplace] using Touches.refl r s
  | queued => simpa [aioForkDone, hplace] using Touches.refl r s
  | active pid =>
    cases received with
    | error e =>
      have hreleased : Touches r s (s.aioForkReleaseChild r true [.complete r (.error e) true]) :=
        touches_aioForkReleaseChild _ _
      simpa [aioForkDone, hplace] using hreleased
    | ok received =>
      cases hreply : (s.workers pid).reply with
      | none => simpa [aioForkDone, hplace, hreply] using Touches.refl r s
      | some ret =>
        have hcopied : Touches r s ((s.setWorker pid fun worker => { worker with reply := none }).setReq
            r fun st => (answered st (s.workers pid).map ret).1) :=
          touches_of_pending rfl rfl rfl fun _ hr' => if_neg hr'
        have hreceived : Touches r s (s.receiveReply r pid ret) :=
          hcopied.trans (touches_aioForkReleaseChild _ _)
        simpa [aioForkDone, hplace, hreply] using hreceived

/-! ## What a step does to one request -/

/-- The queue is about to be looked at, and there is a helper for its head, or there may be. -/
def AtQueue (s : Share) : Prop := (∃ rest, s.stack = .schedule :: rest) ∧ ¬ s.Saturated

/-- The request stays where it is, leaves the queue, or leaves its helper to the queue. -/
inductive Moves (r : ReqId) (s s' : Share) : Prop where
  | stays (hplace : s'.place r = s.place r) (hpending : s'.pending = s.pending)
  | starts (hqueued : s.place r = .queued) (hplace : s'.place r ≠ .queued)
  | ends (pid : Pid) (hactive : s.place r = .active pid) (hplace : s'.place r = .idle)
      (hqueue : s'.AtQueue)

theorem place_releaseChild (hr : s.place r = .active pid) (failed : Bool) (after : List Frame) :
    (s.aioForkReleaseChild r failed after).place r = .idle := by
  have hr' : (s.reqs r).place = .active pid := hr
  rw [aioForkReleaseChild, hr']
  cases failed <;>
    simp [Share.place, Share.push, Share.freeChild, Share.setChild, Share.setReq]

theorem Inv.atQueue (h : s.Inv False none) (hr : s.place r = .active pid) (failed : Bool)
    (after : List Frame) : (s.aioForkReleaseChild r failed after).AtQueue := by
  have hr' : (s.reqs r).place = .active pid := hr
  obtain ⟨child, hchild, rfl⟩ := h.assigned.helper r pid hr
  have hidle : { child with busy := false } ∈
      updateChild child.pid (fun child => { child with busy := false }) s.children :=
    mem_updateChild.mpr ⟨child, hchild, (if_pos rfl).symm⟩
  rw [aioForkReleaseChild, hr']
  cases failed with
  | false =>
    refine ⟨⟨_, rfl⟩, ?_⟩
    rintro ⟨-, -, hall⟩
    exact absurd (hall _ hidle) (by simp)
  | true =>
    refine ⟨⟨_, rfl⟩, ?_⟩
    rintro ⟨hmax, hlength, -⟩
    have hle := h.maxChildren hmax
    have hpids : ((updateChild child.pid (fun child => { child with busy := false })
        s.children).map (·.pid)).Nodup :=
      (h.assigned.release (f := fun child => { child with busy := false }) (fun _ => rfl)
        (fun _ => rfl) hr).pids
    have hleft := length_filter_pid hpids hidle
    have hpos : 0 < s.children.length := List.length_pos_of_mem hchild
    have hsame : (updateChild child.pid (fun child => { child with busy := false })
        s.children).length = s.children.length := List.length_map _
    have hlength' : ((updateChild child.pid (fun child => { child with busy := false })
        s.children).filter fun c => c.pid ≠ child.pid).length = s.maxChildren := hlength
    have hleft' : ((updateChild child.pid (fun child => { child with busy := false })
        s.children).filter fun c => c.pid ≠ child.pid).length = _ := hleft
    omega

theorem Inv.moves_freeReq (h : s.Inv False none) : Moves r s (s.freeReq r) := by
  have hafter : (s.freeReq r).Inv False none := h.freeReq False.elim
  by_cases hguard : s.nextReq ≤ r ∨ (s.reqs r).returned = false ∨ (s.reqs r).freed = true
  · rw [Share.freeReq, if_pos hguard]
    exact .stays rfl rfl
  · have hfree : s.freeReq r = ((s.aioForkUnqueue r).aioForkReleaseChild r true []).setReq r
        fun st => { st with freed := true } := if_neg hguard
    have hidle : (s.freeReq r).place r = .idle := by
      apply (hafter.gone r _).1
      rw [hfree, reqs_setReq, if_pos rfl]
    cases hplace : s.place r with
    | idle =>
      refine .stays (hidle.trans hplace.symm) ?_
      have hplace' : (s.reqs r).place = .idle := hplace
      simp [hfree, aioForkUnqueue, aioForkReleaseChild, hplace', Share.setReq]
    | queued => exact .starts hplace (by simp [hidle])
    | active pid =>
      refine .ends pid hplace hidle ?_
      have hplace' : (s.reqs r).place = .active pid := hplace
      rw [hfree, aioForkUnqueue, if_pos (by simp [hplace'])]
      exact h.atQueue hplace true []

theorem Inv.moves_aioForkDone (h : s.Inv False none) (received : Except Errno Unit) :
    Moves r s (s.aioForkDone r received) := by
  have hstays : Moves r s s := .stays rfl rfl
  cases hplace : (s.reqs r).place with
  | idle => simpa [Share.aioForkDone, hplace] using hstays
  | queued => simpa [Share.aioForkDone, hplace] using hstays
  | active pid =>
    cases received with
    | error e =>
      have hends : Moves r s (s.aioForkReleaseChild r true [.complete r (.error e) true]) :=
        .ends pid hplace (place_releaseChild hplace _ _) (h.atQueue hplace _ _)
      simpa [Share.aioForkDone, hplace] using hends
    | ok received =>
      cases hreply : (s.workers pid).reply with
      | none => simpa [Share.aioForkDone, hplace, hreply] using hstays
      | some ret =>
        have hcopied : ((s.setWorker pid fun worker => { worker with reply := none }).setReq r
            fun st => (answered st (s.workers pid).map ret).1).Inv False none :=
          (h.setWorker _).setReq fun st => answered_keeps st _ _
        have hplace' : ((s.setWorker pid fun worker => { worker with reply := none }).setReq r
            fun st => (answered st (s.workers pid).map ret).1).place r = .active pid := by
          show (if r = r then _ else s.reqs r : AioForkState).place = _
          rw [if_pos rfl]
          exact (answered_keeps _ _ _).1.trans hplace
        have hends : Moves r s (s.receiveReply r pid ret) :=
          .ends pid hplace (place_releaseChild hplace' _ _) (hcopied.atQueue hplace' _ _)
        simpa [Share.aioForkDone, hplace, hreply] using hends

theorem place_aioForkDispatch (notify : Bool) :
    (s.aioForkDispatch luck r pid notify).1.place r ≠ .queued := by
  rw [aioForkDispatch]
  cases luck.writeFd with
  | error e => simp [place_releaseChild place_occupy]
  | ok _ =>
    have hplace : ((s.occupy r pid).sendCmd r pid).place r = .active pid := by
      have hsame := place_setReq_same (s := s.occupy r pid) (r := r)
        (f := fun st => { st with sentTo := some pid }) fun _ => rfl
      exact (congrFun hsame r).trans place_occupy
    show (if luck.readPacketOk then _ else _ : Share × Bool).1.place r ≠ _
    split
    · simp [hplace]
    · simp [place_releaseChild hplace]

theorem place_teventReqFinish (result : Result) (r' : ReqId) :
    (s.teventReqFinish r result).place r' = s.place r' := by
  rw [teventReqFinish]
  split
  · rfl
  · have hsame := place_setReq_same (s := s) (r := r)
      (f := fun st => { st with completions := st.completions + 1, result := some result })
      fun _ => rfl
    exact congrFun hsame r'

theorem pending_aioForkReleaseChild (failed : Bool) (after : List Frame) :
    (s.aioForkReleaseChild r failed after).pending = s.pending := by
  rw [aioForkReleaseChild]
  split
  · cases failed <;> rfl
  · rfl

theorem pending_occupy : (s.occupy r pid).pending = s.pending := by
  rw [occupy]
  split <;> rfl

theorem pending_aioForkDispatch (notify : Bool) :
    (s.aioForkDispatch luck r pid notify).1.pending = s.pending := by
  rw [aioForkDispatch]
  cases luck.writeFd with
  | error e => exact (pending_aioForkReleaseChild _ _).trans pending_occupy
  | ok _ =>
    show (if luck.readPacketOk then _ else _ : Share × Bool).1.pending = _
    split
    · exact pending_occupy
    · exact (pending_aioForkReleaseChild _ _).trans pending_occupy

theorem pending_teventReqFinish (result : Result) :
    (s.teventReqFinish r result).pending = s.pending := by
  rw [teventReqFinish]
  split <;> rfl

/-- The head of the queue is started whenever it can be. -/
theorem Inv.schedulePending_starts (h : s.Inv False none) (luck : Luck) (hfree : ¬ s.Saturated)
    {rest : List ReqId} (hpending : s.pending = r :: rest) :
    (s.aioForkSchedulePending luck).pending = rest ∧
      (s.aioForkSchedulePending luck).place r ≠ .queued ∧
      Touches r s (s.aioForkSchedulePending luck) := by
  have hqueued : s.place r = .queued := (h.assigned.queued r).mp (by simp [hpending])
  have hrest := (pending_unqueue hqueued hpending).1
  rw [Share.aioForkSchedulePending, hpending]
  cases hidle : s.aioForkFindIdleChild with
  | some child =>
    exact ⟨(pending_aioForkDispatch true).trans hrest, place_aioForkDispatch true,
      touches_startPending.trans (touches_aioForkDispatch true)⟩
  | none =>
    have hmay : ¬ (s.maxChildren ≠ 0 ∧ s.maxChildren ≤ s.numChildren) := by
      rintro ⟨hmax, hfull⟩
      rw [h.numChildren] at hfull
      exact hfree ⟨hmax, Nat.le_antisymm (h.maxChildren hmax) hfull, findIdleChild_none hidle⟩
    show (if s.maxChildren ≠ 0 ∧ s.maxChildren ≤ s.numChildren then _ else _ : Share).pending = _ ∧
      (if s.maxChildren ≠ 0 ∧ s.maxChildren ≤ s.numChildren then _ else _ : Share).place r ≠ _ ∧
      Touches r s (if s.maxChildren ≠ 0 ∧ s.maxChildren ≤ s.numChildren then _ else _ : Share)
    rw [if_neg hmay]
    split
    · have hrest' := (pending_unqueue (s := s.createAioChild) hqueued hpending).1
      exact ⟨(pending_aioForkDispatch true).trans hrest', place_aioForkDispatch true,
        (touches_createAioChild.trans touches_startPending).trans (touches_aioForkDispatch true)⟩
    · have hstarted := h.startPending hpending
      have hplace : ((s.startPending r).aioForkRunSync luck r).place r = .idle := by
        have hsame := place_setReq_same (s := s.startPending r) (r := r)
          (f := fun st => (syncCall luck.io st).1) fun st => (syncCall_keeps luck.io st).1
        rw [Share.aioForkRunSync, place_teventReqFinish, hsame]
        exact hstarted.in_hand.2.2.2.1
      have hleft : (((s.startPending r).aioForkRunSync luck r).push
          [.actions luck.script]).place r ≠ .queued := by
        show ((s.startPending r).aioForkRunSync luck r).place r ≠ .queued
        simp [hplace]
      refine ⟨(pending_teventReqFinish _).trans hrest, hleft, ?_⟩
      exact (touches_startPending.trans touches_aioForkRunSync).trans
        (touches_of_pending rfl rfl rfl fun _ _ => rfl)

theorem Moves.of_eq {s₀ : Share} (h : Moves r s₀ s') (hplace : s₀.place r = s.place r)
    (hpending : s₀.pending = s.pending) : Moves r s s' := by
  cases h with
  | stays hp hq => exact .stays (hp.trans hplace) (hq.trans hpending)
  | starts hq hp => exact .starts (hplace ▸ hq) hp
  | ends pid ha hp hq => exact .ends pid (hplace ▸ ha) hp hq

theorem Touches.of_eq {s₀ : Share} (h : Touches r s₀ s') (hreqs : s₀.reqs = s.reqs)
    (hpending : s₀.pending = s.pending) (hnext : s₀.nextReq = s.nextReq)
    (hmax : s₀.maxChildren = s.maxChildren) : Touches r s s' :=
  (touches_of_pending hpending hnext hmax fun r' _ => congrFun hreqs r').trans h

/-- What an owner does concerns a new request, or the one that is freed. -/
theorem Inv.touches_perform (h : s.Inv False none) (luck : Luck) (action : Action) :
    ∃ r, Touches r s (s.perform luck action) ∧
      (s.nextReq ≤ r ∨ Moves r s (s.perform luck action)) := by
  cases action with
  | submit cmd n offset data =>
    exact ⟨s.nextReq, touches_aioForkSend cmd n offset data, .inl (Nat.le_refl _)⟩
  | free r => exact ⟨r, touches_freeReq, .inr h.moves_freeReq⟩

/-- A step concerns one request. -/
theorem Inv.touches_step (h : s.Inv False none) (hstep : Step allow s s') :
    ∃ r, Touches r s s' ∧ (s.nextReq ≤ r ∨ Moves r s s') := by
  have hsame : ∀ s' : Share, s'.reqs = s.reqs → s'.pending = s.pending →
      s'.nextReq = s.nextReq → s'.maxChildren = s.maxChildren →
      ∃ r, Touches r s s' ∧ (s.nextReq ≤ r ∨ Moves r s s') := by
    intro s' hreqs hpending hnext hmax
    refine ⟨0, touches_of_pending hpending hnext hmax fun r _ => congrFun hreqs r, .inr ?_⟩
    exact .stays (congrArg AioForkState.place (congrFun hreqs 0)) hpending
  cases hstep with
  | act luck action _ _ _ => exact h.touches_perform luck action
  | done r received _ _ => exact ⟨r, touches_aioForkDone received, .inr (h.moves_aioForkDone received)⟩
  | cleanup luck _ _ => exact hsame _ rfl rfl rfl rfl
  | work pid work _ =>
    rw [Share.work]
    cases (s.workers pid).job with
    | none => exact hsame _ rfl rfl rfl rfl
    | some job =>
      cases work with
      | reads bytes =>
        show ∃ r, Touches r s (if job.cmd = .read ∧ bytes.length ≤ job.n then _ else s : Share) ∧
          (_ ∨ Moves r s (if job.cmd = .read ∧ bytes.length ≤ job.n then _ else s : Share))
        split
        · refine ⟨job.req, touches_of_pending rfl rfl rfl fun _ hr' => if_neg hr', .inr (.stays ?_ rfl)⟩
          show (if job.req = job.req then _ else s.reqs job.req : AioForkState).place = _
          rw [if_pos rfl]
          rfl
        · exact hsame _ rfl rfl rfl rfl
      | writes =>
        show ∃ r, Touches r s (if job.cmd.writes then _ else s : Share) ∧
          (_ ∨ Moves r s (if job.cmd.writes then _ else s : Share))
        split <;> exact hsame _ rfl rfl rfl rfl
      | replies ret =>
        show ∃ r, Touches r s (if honest (s.reqs job.req) job ret then _ else s : Share) ∧
          (_ ∨ Moves r s (if honest (s.reqs job.req) job ret then _ else s : Share))
        split <;> exact hsame _ rfl rfl rfl rfl
  | resume luck _ _ _ =>
    rw [Share.resume]
    cases hstack : s.stack with
    | nil => exact hsame _ rfl rfl rfl rfl
    | cons frame rest =>
      cases frame with
      | schedule =>
        show ∃ r, Touches r s (s.aioForkSchedulePending luck) ∧
          (_ ∨ Moves r s (s.aioForkSchedulePending luck))
        cases hpending : s.pending with
        | nil =>
          rw [Share.aioForkSchedulePending, hpending]
          exact hsame _ rfl rfl rfl rfl
        | cons r others =>
          by_cases hfree : s.Saturated
          · have hidle : s.aioForkFindIdleChild = none := by
              simpa [aioForkFindIdleChild] using hfree.2.2
            have hfull : s.maxChildren ≠ 0 ∧ s.maxChildren ≤ s.numChildren := by
              rw [h.numChildren]
              exact ⟨hfree.1, hfree.2.1.ge⟩
            have hpop : s.aioForkSchedulePending luck = s.pop := by
              simp [Share.aioForkSchedulePending, hpending, hidle, hfull]
            rw [hpop]
            exact hsame _ rfl rfl rfl rfl
          · obtain ⟨-, hplace, htouches⟩ := h.schedulePending_starts luck hfree hpending
            have hqueued : s.place r = .queued := (h.assigned.queued r).mp (by simp [hpending])
            exact ⟨r, htouches, .inr (.starts hqueued hplace)⟩
      | complete r result notify =>
        have htouches : Touches r s (s.pop.teventReqFinish r result) :=
          (touches_teventReqFinish result).of_eq rfl rfl rfl rfl
        have hplace : (s.pop.teventReqFinish r result).place r = s.place r :=
          place_teventReqFinish result r
        have hpending : (s.pop.teventReqFinish r result).pending = s.pending :=
          pending_teventReqFinish result
        cases notify with
        | true =>
          exact ⟨r, htouches.trans (touches_of_pending rfl rfl rfl fun _ _ => rfl),
            .inr (.stays hplace hpending)⟩
        | false =>
          have hsame' := place_setReq_same (s := s.pop.teventReqFinish r result) (r := r)
            (f := fun st => { st with returned := true }) fun _ => rfl
          show ∃ r', Touches r' s ((s.pop.teventReqFinish r result).giveBack r) ∧
            (_ ∨ Moves r' s ((s.pop.teventReqFinish r result).giveBack r))
          exact ⟨r, htouches.trans (touches_setReq _),
            .inr (.stays ((congrFun hsame' r).trans hplace) hpending)⟩
      | actions script =>
        cases script with
        | nil => exact hsame _ rfl rfl rfl rfl
        | cons action script =>
          obtain ⟨r, htouches, hmoves⟩ :=
            ((h.popActions hstack).pushActions script).touches_perform luck action
          show ∃ r, Touches r s ((s.pop.push [.actions script]).perform luck action) ∧
            (_ ∨ Moves r s ((s.pop.push [.actions script]).perform luck action))
          exact ⟨r, htouches.of_eq rfl rfl rfl rfl, hmoves.imp_right fun h => h.of_eq rfl rfl⟩

/-- While the queue is about to be looked at, helpers may go on working, but the next step of the
server starts its head. -/
theorem Inv.atQueue_step (h : s.Inv False none) (hstep : Step allow s s') (hat : s.AtQueue)
    (hr : r ∈ s.pending) :
    s'.AtQueue ∧ s'.pending = s.pending ∨ (r ∈ s'.pending → s'.ahead r < s.ahead r) := by
  obtain ⟨⟨rest, hstack⟩, hfree⟩ := hat
  cases hstep with
  | act luck action _ hempty _ => exact absurd (hstack.symm.trans hempty) (by simp)
  | done r received _ hempty => exact absurd (hstack.symm.trans hempty) (by simp)
  | cleanup luck _ hempty => exact absurd (hstack.symm.trans hempty) (by simp)
  | work pid work _ =>
    have hsame : ∀ s' : Share, s'.stack = s.stack → s'.children = s.children →
        s'.maxChildren = s.maxChildren → s'.pending = s.pending →
        s'.AtQueue ∧ s'.pending = s.pending ∨ (r ∈ s'.pending → s'.ahead r < s.ahead r) := by
      intro s' hs hc hm hp
      refine .inl ⟨⟨⟨rest, hs.trans hstack⟩, ?_⟩, hp⟩
      rwa [Saturated, hc, hm]
    rw [Share.work]
    cases (s.workers pid).job with
    | none => exact hsame _ rfl rfl rfl rfl
    | some job =>
      cases work with
      | reads bytes =>
        refine hsame _ ?_ ?_ ?_ ?_ <;> dsimp only <;> split <;> rfl
      | writes =>
        refine hsame _ ?_ ?_ ?_ ?_ <;> dsimp only <;> split <;> rfl
      | replies ret =>
        refine hsame _ ?_ ?_ ?_ ?_ <;> dsimp only <;> split <;> rfl
  | resume luck _ _ _ =>
    right
    rw [Share.resume, hstack]
    show r ∈ (s.aioForkSchedulePending luck).pending → (s.aioForkSchedulePending luck).ahead r < _
    cases hpending : s.pending with
    | nil => exact absurd (hpending ▸ hr) List.not_mem_nil
    | cons first others =>
      rw [ahead, ahead, (h.schedulePending_starts luck hfree hpending).1, hpending]
      intro hr'
      have hne : first ≠ r := by
        have hnodup := hpending ▸ h.assigned.nodup
        rintro rfl
        exact (List.nodup_cons.mp hnodup).1 hr'
      simp [hne]

end Steps

/-! ## Runs -/

section Runs

variable {maxChildren : Nat} {run : Nat → Share} {i j : Nat} {r : ReqId}

/-- A run of the server and its helpers that does not end. -/
structure Run (allow : Share → Luck → Action → Prop) (maxChildren : Nat) (run : Nat → Share) :
    Prop where
  start : run 0 = connected maxChildren
  step : ∀ i, Step allow (run i) (run (i + 1))

/-- Helpers answer or fail, unless their request is freed, and callbacks come to an end. -/
structure Fair (run : Nat → Share) : Prop where
  answers : ∀ i r pid, (run i).place r = .active pid → ∃ j, i ≤ j ∧ (run j).place r ≠ .active pid
  returns : ∀ i, ∃ j, i ≤ j ∧ (run j).stack = []

variable {allow : Share → Luck → Action → Prop} (h : Run allow maxChildren run)

include h

theorem Run.inv (i : Nat) : (run i).Inv False none := by
  induction i with
  | zero => exact h.start ▸ inv_connected maxChildren
  | succ i ih => exact ih.step False.elim (h.step i)

theorem Run.nextReq (hij : i ≤ j) : (run i).nextReq ≤ (run j).nextReq := by
  induction hij with
  | refl => exact Nat.le_refl _
  | @step j hij ih =>
    obtain ⟨r, htouches, -⟩ := (h.inv j).touches_step (h.step j)
    exact ih.trans htouches.nextReq

omit h in
theorem Inv.new_of_place {s : Share} (h : s.Inv False none) (hr : s.place r ≠ .idle) : r < s.nextReq := by
  by_cases hfreed : (s.reqs r).freed = false
  · have htotal := h.total r hfreed
    simp only [Place.held] at htotal
    grind
  · exact (h.gone r (by simpa using hfreed)).2.2.2

/-- A request that has left the queue and its helper is not given to one again. -/
theorem Run.idle (hr : r < (run i).nextReq) (hidle : (run i).place r = .idle) (hij : i ≤ j) :
    (run j).place r = .idle := by
  induction hij with
  | refl => exact hidle
  | @step j hij ih =>
    obtain ⟨r', htouches, hmoves⟩ := (h.inv j).touches_step (h.step j)
    by_cases hne : r = r'
    · subst hne
      have hnew := Nat.lt_of_lt_of_le hr (h.nextReq hij)
      cases hmoves.resolve_left (Nat.not_le.mpr hnew) with
      | stays hplace _ => exact hplace.trans ih
      | starts hqueued _ => exact absurd (hqueued.symm.trans ih) (by simp)
      | ends pid hactive _ _ => exact absurd (hactive.symm.trans ih) (by simp)
    · exact (congrArg AioForkState.place (htouches.other r hne)).trans ih

/-- A request that is idle when no function is left to return has completed. -/
theorem Run.completed (hr : r < (run i).nextReq) (hidle : (run i).place r = .idle) (hij : i ≤ j)
    (hstack : (run j).stack = []) :
    ((run j).reqs r).freed = true ∨ ((run j).reqs r).completions = 1 := by
  have hidle' := h.idle hr hidle hij
  have hnew := Nat.lt_of_lt_of_le hr (h.nextReq hij)
  by_cases hfreed : ((run j).reqs r).freed = false
  · have htotal := (h.inv j).total r hfreed
    simp only [outstanding, hstack, hidle', Place.held, hnew] at htotal
    exact .inr (by simpa using htotal)
  · exact .inl (by simpa using hfreed)

/-- An active request stays with its helper until it is idle. -/
theorem Run.active {pid : Pid} (hactive : (run i).place r = .active pid) (hij : i ≤ j) :
    (run j).place r = .active pid ∨ (run j).place r = .idle := by
  induction hij with
  | refl => exact .inl hactive
  | @step j hij ih =>
    obtain ⟨r', htouches, hmoves⟩ := (h.inv j).touches_step (h.step j)
    by_cases hne : r = r'
    · subst hne
      have hnew : r < (run j).nextReq :=
        Nat.lt_of_lt_of_le ((h.inv i).new_of_place (by simp [hactive])) (h.nextReq hij)
      cases hmoves.resolve_left (Nat.not_le.mpr hnew) with
      | stays hplace _ => rwa [hplace]
      | starts hqueued _ => exact absurd hqueued (by rcases ih with ih | ih <;> simp [ih])
      | ends _ _ hplace _ => exact .inr hplace
    · rwa [Share.place, htouches.other r hne]

theorem Run.released {pid : Pid} (hfair : Fair run) (hactive : (run i).place r = .active pid) :
    ∃ j, i ≤ j ∧ (run j).place r = .idle := by
  obtain ⟨j, hij, hj⟩ := hfair.answers i r pid hactive
  exact ⟨j, hij, (h.active hactive hij).resolve_left hj⟩

/-- Nobody gets in front of a request that is queued. -/
theorem Run.ahead (hqueued : ∀ k, i ≤ k → (run k).place r = .queued) (hij : i ≤ j) :
    (run j).ahead r ≤ (run i).ahead r := by
  induction hij with
  | refl => exact Nat.le_refl _
  | @step j hij ih =>
    have hmem : r ∈ (run j).pending := ((h.inv j).assigned.queued r).mpr (hqueued j hij)
    obtain ⟨r', htouches, hmoves⟩ := (h.inv j).touches_step (h.step j)
    by_cases hne : r = r'
    · subst hne
      have hnew : r < (run j).nextReq := (h.inv j).new_of_place (by simp [hqueued j hij])
      cases hmoves.resolve_left (Nat.not_le.mpr hnew) with
      | stays _ hpending =>
        rw [Share.ahead, hpending]
        exact ih
      | starts _ hplace => exact absurd (hqueued (j + 1) (Nat.le_succ_of_le hij)) hplace
      | ends pid hactive _ _ => exact absurd (hactive.symm.trans (hqueued j hij)) (by simp)
    · exact (htouches.queue r hne hmem).2.trans ih

/-- A request does not stay in the queue. -/
theorem Run.dequeued (hfair : Fair run) (i : Nat) (r : ReqId) :
    ∃ j, i ≤ j ∧ (run j).place r ≠ .queued := by
  apply eventually_of_rank fun j => (run j).ahead r
  intro k _
  by_contra hnever
  simp only [not_exists, not_and, not_or, not_not, Nat.not_lt] at hnever
  have hqueued : ∀ j, k ≤ j → (run j).place r = .queued := fun j hj => (hnever j hj).1
  have hmem : ∀ j, k ≤ j → r ∈ (run j).pending := fun j hj =>
    ((h.inv j).assigned.queued r).mpr (hqueued j hj)
  -- when no function is left to return, all helpers are busy, so one of them has a request
  obtain ⟨b, hkb, hstack⟩ := hfair.returns k
  obtain ⟨hmax, hlength, hall⟩ := ((h.inv b).waiting (List.ne_nil_of_mem (hmem b hkb))).resolve_right
    (by simp [hstack])
  have hpos : 0 < (run b).children.length := by omega
  obtain ⟨child, hchild⟩ := List.exists_mem_of_length_pos hpos
  obtain ⟨x, hx⟩ := ((h.inv b).assigned.busy child hchild).mp (hall child hchild)
  -- the helper is let go at some step, and then the queue is looked at
  obtain ⟨j, hbj, hj⟩ := hfair.answers b x child.pid hx
  obtain ⟨m, hbm, -, hm, hm'⟩ :=
    exists_last (P := fun j => (run j).place x = .active child.pid) hbj hx hj
  have hqueue : (run (m + 1)).AtQueue := by
    obtain ⟨r', htouches, hmoves⟩ := (h.inv m).touches_step (h.step m)
    have heq : x = r' := by
      by_contra hne
      exact hm' ((congrArg AioForkState.place (htouches.other x hne)).trans hm)
    subst heq
    have hnew : x < (run m).nextReq := (h.inv m).new_of_place (by simp [hm])
    cases hmoves.resolve_left (Nat.not_le.mpr hnew) with
    | stays hplace _ => exact absurd (hplace.trans hm) hm'
    | starts hqueued _ => exact absurd (hm.symm.trans hqueued) (by simp)
    | ends _ _ _ hqueue => exact hqueue
  obtain ⟨e, hme, hempty⟩ := hfair.returns (m + 1)
  have hne : ¬ (run e).AtQueue := by
    rintro ⟨⟨rest, hrest⟩, -⟩
    exact absurd (hrest.symm.trans hempty) (by simp)
  obtain ⟨l, hml, -, hl, hl'⟩ := exists_last (P := fun j => (run j).AtQueue) hme hqueue hne
  have hkl : k ≤ l := by omega
  rcases (h.inv l).atQueue_step (h.step l) hl (hmem l hkl) with hat | hlt
  · exact hl' hat.1
  · have hless := hlt (hmem (l + 1) (by omega))
    have hle := h.ahead (fun j hj => hqueued j hj) hkl
    have hge := (hnever (l + 1) (by omega)).2
    omega

/-- Every request that is not freed completes once and for all. -/
theorem Run.completes (hfair : Fair run) (hr : r < (run i).nextReq) :
    ∃ j, i ≤ j ∧ ∀ k, j ≤ k → (run k).stack = [] →
      ((run k).reqs r).freed = true ∨ ((run k).reqs r).completions = 1 := by
  obtain ⟨j, hij, hj⟩ := h.dequeued hfair i r
  have hidle : ∃ m, j ≤ m ∧ (run m).place r = .idle := by
    cases hplace : (run j).place r with
    | idle => exact ⟨j, Nat.le_refl j, hplace⟩
    | queued => exact absurd hplace hj
    | active pid => exact h.released hfair hplace
  obtain ⟨m, hjm, hm⟩ := hidle
  refine ⟨m, hij.trans hjm, fun k hmk hstack => ?_⟩
  exact h.completed (Nat.lt_of_lt_of_le hr (h.nextReq (hij.trans hjm))) hm hmk hstack

end Runs

/-! ## The pool after each event -/

def Reachable (allow : Share → Luck → Action → Prop) (maxChildren : Nat) (s : Share) : Prop :=
  Relation.ReflTransGen (Step allow) (connected maxChildren) s

/-- The pool when no function is left to return. -/
structure Sound (maxChildren : Nat) (s : Share) : Prop where
  pids : (s.children.map (·.pid)).Nodup
  numChildren : s.numChildren = s.children.length
  bounded : maxChildren ≠ 0 → s.numChildren ≤ maxChildren
  numPending : s.numPending = s.pending.length
  maxPending : s.numPending ≤ aioForkMaxPending
  queue : s.pending.Nodup ∧ ∀ r, r ∈ s.pending ↔ s.place r = .queued
  busy : ∀ child ∈ s.children, child.busy = true → ∃! r, s.place r = .active child.pid
  active : ∀ r pid, s.place r = .active pid →
    ∃! child, child ∈ s.children ∧ child.busy = true ∧ child.pid = pid
  /-- Requests wait only for helpers that are all there and all busy. -/
  waiting : s.pending ≠ [] →
    maxChildren ≠ 0 ∧ s.numChildren = maxChildren ∧ ∀ child ∈ s.children, child.busy = true
  /-- Requests are started in the order in which they have been queued. -/
  order : s.queuedLog.Nodup ∧ (s.startedLog ++ s.pending).Sublist s.queuedLog
  once : ∀ r < s.nextReq, (s.reqs r).freed = false →
    (s.reqs r).completions = if s.place r = .idle then 1 else 0

/-- What the pool promises to owners who act as they are allowed to. -/
structure KeepsPool (allow : Share → Luck → Action → Prop) (maxChildren : Nat) : Prop where
  safe : ∀ s, Reachable allow maxChildren s → s.fault = false
  sound : ∀ s, Reachable allow maxChildren s → s.stack = [] → s.Sound maxChildren
  completes : ∀ run, Run allow maxChildren run → Fair run →
    ∀ i r, r < (run i).nextReq → ∃ j, i ≤ j ∧ ∀ k, j ≤ k → (run k).stack = [] →
      ((run k).reqs r).freed = true ∨ ((run k).reqs r).completions = 1

section Pool

variable {maxChildren : Nat} {s : Share}

theorem Inv.sound (h : s.Inv False none) (hmax : s.maxChildren = maxChildren) (hstack : s.stack = []) :
    s.Sound maxChildren := by
  subst hmax
  constructor
  case pids => exact h.assigned.pids
  case numChildren => exact h.numChildren
  case bounded =>
    intro hmax
    exact h.numChildren.trans_le (h.maxChildren hmax)
  case numPending => exact h.numPending
  case maxPending => exact h.numPending.trans_le h.maxPending
  case queue => exact ⟨h.assigned.nodup, h.assigned.queued⟩
  case busy =>
    intro child hchild hbusy
    obtain ⟨r, hr⟩ := (h.assigned.busy child hchild).mp hbusy
    exact ⟨r, hr, fun r' hr' => h.assigned.one r' r _ hr' hr⟩
  case active =>
    intro r pid hr
    obtain ⟨child, hchild, rfl⟩ := h.assigned.helper r pid hr
    refine ⟨child, ⟨hchild, (h.assigned.busy child hchild).mpr ⟨r, hr⟩, rfl⟩, ?_⟩
    rintro child' ⟨hchild', -, hpid⟩
    exact List.inj_on_of_nodup_map h.assigned.pids hchild' hchild hpid
  case waiting =>
    intro hpending
    have hsaturated := (h.waiting hpending).resolve_right (by simp [hstack])
    exact ⟨hsaturated.1, h.numChildren.trans hsaturated.2.1, hsaturated.2.2⟩
  case order => exact ⟨h.logged.1.imp Nat.ne_of_lt, h.started⟩
  case once =>
    intro r hr hfreed
    have htotal := h.total r hfreed
    simp only [outstanding, hstack, Place.held, hr] at htotal
    grind

variable {allow : Share → Luck → Action → Prop}

/-- The number of helpers that was configured stays. -/
theorem Reachable.inv (h : Reachable allow maxChildren s) :
    s.Inv False none ∧ s.maxChildren = maxChildren := by
  induction h with
  | refl => exact ⟨inv_connected maxChildren, rfl⟩
  | tail _ hstep ih =>
    obtain ⟨r, htouches, -⟩ := ih.1.touches_step hstep
    exact ⟨ih.1.step False.elim hstep, htouches.maxChildren.trans ih.2⟩

theorem Reachable.inv_careful (h : Reachable Careful maxChildren s) : s.Inv True none := by
  induction h with
  | refl => exact inv_connected maxChildren
  | tail _ hstep ih => exact ih.step (fun _ _ _ _ hallow => hallow) hstep

/-- The pool is sound, and all requests complete, as long as no owner frees a request between the
release of its helper and its completion, and the timer of a pool that is in use can be set. -/
theorem keepsPool_careful (maxChildren : Nat) : KeepsPool Careful maxChildren where
  safe _ h := h.inv_careful.noFault trivial
  sound _ h := h.inv.1.sound h.inv.2
  completes _ h hfair _ _ hr := h.completes hfair hr

/-- The functions on the stack go on, one luck for each step, as long as there are any. -/
def resumes : List Luck → Share → Option Share
  | [], s => some s
  | luck :: lucks, s =>
      if s.fault = false ∧ s.stack ≠ [] then resumes lucks (s.resume luck) else none

theorem reachable_resumes {lucks : List Luck} {s' : Share}
    (h : Reachable (fun _ _ _ => True) maxChildren s) (hs' : resumes lucks s = some s') :
    Reachable (fun _ _ _ => True) maxChildren s' := by
  induction lucks generalizing s with
  | nil =>
    simp only [resumes, Option.some.injEq] at hs'
    exact hs' ▸ h
  | cons luck lucks ih =>
    rw [resumes] at hs'
    split at hs'
    · rename_i hrun
      exact ih (h.tail (.resume luck hrun.1 hrun.2 fun _ _ => trivial)) hs'
    · simp at hs'

/-- Every call succeeds, and callbacks free the first request. -/
def frees : Luck := ⟨true, true, .ok (), true, .ok [], [.free 0]⟩

def submitted (s : Share) : Share := s.perform frees (.submit .read 0 0 [])

/-- The only helper has answered the first of two requests, and the other one waits. -/
def behind : Share := (connected 1).submitted.submitted.work 0 (.replies ⟨0, 0⟩)

/-- The request that waits cannot be sent, so its callback runs before the completion of the first. -/
def overtaking : List Luck :=
  [{ frees with writeFd := .error EIO }, frees, frees, frees, frees, frees, frees]

theorem not_keepsPool : ¬ KeepsPool (fun _ _ _ => True) 1 := by
  intro h
  have hbehind : Reachable (fun _ _ _ => True) 1 behind :=
    ((Relation.ReflTransGen.refl.tail (.act frees _ rfl rfl trivial)).tail
      (.act frees _ rfl rfl trivial)).tail (.work 0 _ rfl)
  have hdone := hbehind.tail (.done 0 (.ok ()) (by decide +kernel) (by decide +kernel))
  have hfault : (resumes overtaking (behind.aioForkDone 0 (.ok ()))).any (·.fault) = true := by
    decide +kernel
  obtain ⟨s, hs, hfault⟩ := (Option.any_eq_true _ _).mp hfault
  have hsafe := h.safe _ (reachable_resumes hdone hs)
  rw [hfault] at hsafe
  exact absurd hsafe (by decide)

end Pool

end Share

end TimeCapsule.AioFork
