import Mathlib.Data.List.Nodup
import TimeCapsule.AioFork.Pool

/-!
# What holds of the pool

The invariant between any two steps, whatever owners do.  A request that has just left the queue, or that is just being
submitted, is in hand: it is neither waiting nor at work, and it has not completed.
-/

namespace TimeCapsule.AioFork

open Lib

/-! ## Helpers and the requests they have -/

/-- Every request is in the queue, with a helper of its own, or with neither. -/
structure Assigned (children : List AioChild) (pending : List ReqId) (place : ReqId → Place) :
    Prop where
  pids : (children.map (·.pid)).Nodup
  nodup : pending.Nodup
  queued : ∀ r, r ∈ pending ↔ place r = .queued
  busy : ∀ child ∈ children, child.busy = true ↔ ∃ r, place r = .active child.pid
  helper : ∀ r pid, place r = .active pid → ∃ child ∈ children, child.pid = pid
  one : ∀ r r' pid, place r = .active pid → place r' = .active pid → r = r'

section Assigned

variable {children : List AioChild} {pending : List ReqId} {place : ReqId → Place} {r : ReqId}
  {pid : Pid} {child : AioChild} {f : AioChild → AioChild}

theorem map_pid_updateChild (hf : ∀ child, (f child).pid = child.pid) :
    (updateChild pid f children).map (·.pid) = children.map (·.pid) := by
  simp only [updateChild, List.map_map]
  apply List.map_congr_left
  intro child _
  simp only [Function.comp]
  split <;> simp [hf]

theorem mem_updateChild : child ∈ updateChild pid f children ↔
    ∃ child' ∈ children, child = if child'.pid = pid then f child' else child' := by
  simp [updateChild, eq_comm]

variable (h : Assigned children pending place)

include h

theorem Assigned.idle_child (hchild : child ∈ children) (hbusy : child.busy = false) (r : ReqId) :
    place r ≠ .active child.pid := by
  intro hr
  rw [(h.busy child hchild).mpr ⟨r, hr⟩] at hbusy
  exact absurd hbusy (by decide)

theorem Assigned.assign (hf : ∀ child, (f child).pid = child.pid)
    (hbusy' : ∀ child, (f child).busy = true) (hchild : child ∈ children)
    (hbusy : child.busy = false) (hidle : place r = .idle) :
    Assigned (updateChild child.pid f children) pending
      (Function.update place r (.active child.pid)) := by
  have hnone := h.idle_child hchild hbusy
  constructor
  case pids =>
    rw [map_pid_updateChild hf]
    exact h.pids
  case nodup => exact h.nodup
  case queued =>
    intro r'
    rw [h.queued, Function.update_apply]
    split <;> simp_all
  case busy =>
    intro c hc
    obtain ⟨c', hc', rfl⟩ := mem_updateChild.mp hc
    have := h.busy c' hc'
    simp only [Function.update_apply]
    grind
  case helper =>
    intro r' pid hr'
    simp only [mem_updateChild]
    rw [Function.update_apply] at hr'
    have := h.helper r' pid
    grind
  case one =>
    intro r₁ r₂ pid h₁ h₂
    rw [Function.update_apply] at h₁ h₂
    have := h.one r₁ r₂ pid
    grind

theorem Assigned.release (hf : ∀ child, (f child).pid = child.pid)
    (hbusy' : ∀ child, (f child).busy = false) (hr : place r = .active pid) :
    Assigned (updateChild pid f children) pending (Function.update place r .idle) := by
  constructor
  case pids =>
    rw [map_pid_updateChild hf]
    exact h.pids
  case nodup => exact h.nodup
  case queued =>
    intro r'
    rw [h.queued, Function.update_apply]
    split <;> simp_all
  case busy =>
    intro c hc
    obtain ⟨c', hc', rfl⟩ := mem_updateChild.mp hc
    have hbusy := h.busy c' hc'
    have hone := fun r' => h.one r r' pid hr
    simp only [Function.update_apply]
    grind
  case helper =>
    intro r' pid' hr'
    simp only [mem_updateChild]
    rw [Function.update_apply] at hr'
    have := h.helper r' pid'
    grind
  case one =>
    intro r₁ r₂ pid h₁ h₂
    rw [Function.update_apply] at h₁ h₂
    have := h.one r₁ r₂ pid
    grind

/-- Only helpers that are not busy may leave, and helpers that have just been forked are not. -/
theorem Assigned.keep {kept : List AioChild} (hpids : (kept.map (·.pid)).Nodup)
    (hmem : ∀ child ∈ kept, child.busy = true → child ∈ children)
    (hidle : ∀ child ∈ kept, child.busy = false → ∀ r, place r ≠ .active child.pid)
    (hbusy : ∀ child ∈ children, child.busy = true → child ∈ kept) : Assigned kept pending place where
  pids := hpids
  nodup := h.nodup
  queued := h.queued
  one := h.one
  busy child hchild := by
    constructor
    · intro hb
      exact (h.busy child (hmem child hchild hb)).mp hb
    · rintro ⟨r, hr⟩
      by_contra hb
      exact hidle child hchild (by simpa using hb) r hr
  helper r pid hr := by
    obtain ⟨child, hchild, rfl⟩ := h.helper r pid hr
    exact ⟨child, hbusy child hchild ((h.busy child hchild).mpr ⟨r, hr⟩), rfl⟩

theorem Assigned.unqueue (hr : place r = .queued) :
    Assigned children (pending.erase r) (Function.update place r .idle) := by
  constructor
  case pids => exact h.pids
  case nodup => exact h.nodup.erase r
  case queued =>
    intro r'
    rw [h.nodup.mem_erase_iff, h.queued, Function.update_apply]
    by_cases hr' : r' = r <;> simp [hr']
  case busy =>
    intro child hchild
    have := h.busy child hchild
    simp only [Function.update_apply]
    grind
  case helper =>
    intro r' pid hr'
    rw [Function.update_apply] at hr'
    have := h.helper r' pid
    grind
  case one =>
    intro r₁ r₂ pid h₁ h₂
    rw [Function.update_apply] at h₁ h₂
    have := h.one r₁ r₂ pid
    grind

theorem Assigned.enqueue (hr : place r = .idle) :
    Assigned children (pending ++ [r]) (Function.update place r .queued) := by
  have hnot : r ∉ pending := fun hmem => by simp [(h.queued r).mp hmem] at hr
  constructor
  case pids => exact h.pids
  case nodup =>
    rw [List.nodup_append]
    exact ⟨h.nodup, by simp, by grind⟩
  case queued =>
    intro r'
    rw [List.mem_append, h.queued, Function.update_apply]
    by_cases hr' : r' = r <;> simp [hr']
  case busy =>
    intro child hchild
    have := h.busy child hchild
    simp only [Function.update_apply]
    grind
  case helper =>
    intro r' pid hr'
    rw [Function.update_apply] at hr'
    have := h.helper r' pid
    grind
  case one =>
    intro r₁ r₂ pid h₁ h₂
    rw [Function.update_apply] at h₁ h₂
    have := h.one r₁ r₂ pid
    grind

end Assigned

/-! ## The invariant -/

def Frame.completes (r : ReqId) : Frame → Bool
  | .complete r' _ _ => r' == r
  | _ => false

/-- Whether the request is queued or active. -/
def Place.held (place : Place) : Nat := if place = .idle then 0 else 1

namespace Share

def place (s : Share) (r : ReqId) : Place := (s.reqs r).place

/-- The completions of a request that are still to come. -/
def outstanding (s : Share) (r : ReqId) : Nat := s.stack.countP (Frame.completes r)

/-- There are as many helpers as there may be, and all are busy. -/
def Saturated (s : Share) : Prop :=
  s.maxChildren ≠ 0 ∧ s.children.length = s.maxChildren ∧ ∀ child ∈ s.children, child.busy = true

/-- Whether owners have been careful decides whether something is used that is gone. -/
structure Inv (careful : Prop) (hand : Option ReqId) (s : Share) : Prop where
  noFault : careful → s.fault = false
  assigned : Assigned s.children s.pending s.place
  fresh : ∀ child ∈ s.children, child.pid < s.nextPid
  numChildren : s.numChildren = s.children.length
  maxChildren : s.maxChildren ≠ 0 → s.children.length ≤ s.maxChildren
  numPending : s.numPending = s.pending.length
  maxPending : s.pending.length ≤ aioForkMaxPending
  started : (s.startedLog ++ s.pending).Sublist s.queuedLog
  logged : s.queuedLog.Pairwise (· < ·) ∧ ∀ r ∈ s.queuedLog, r < s.nextReq
  /-- Requests wait only while all helpers are busy, or while the queue is still to be looked at. -/
  waiting : s.pending ≠ [] → s.Saturated ∨ .schedule ∈ s.stack
  /-- A request is in exactly one place, or it has completed. -/
  total : ∀ r, (s.reqs r).freed = false →
    (s.reqs r).completions + s.outstanding r + (s.place r).held + (if hand = some r then 1 else 0) =
      if r < s.nextReq then 1 else 0
  gone : ∀ r, (s.reqs r).freed = true →
    s.place r = .idle ∧ (careful → s.outstanding r = 0) ∧ hand ≠ some r ∧ r < s.nextReq

section Moves

variable {s : Share} {r r' : ReqId} {pid : Pid} {child : AioChild} {hand : Option ReqId}
  {luck : Luck} {careful : Prop}

theorem reqs_setReq (f : AioForkState → AioForkState) :
    (s.setReq r f).reqs r' = if r' = r then f (s.reqs r') else s.reqs r' := rfl

theorem place_setReq {f : AioForkState → AioForkState} {p : Place} (hf : ∀ st, (f st).place = p) :
    (s.setReq r f).place = Function.update s.place r p := by
  funext r'
  rw [place, reqs_setReq, Function.update_apply]
  split <;> simp [hf, place]

theorem place_setReq_same {f : AioForkState → AioForkState} (hf : ∀ st, (f st).place = st.place) :
    (s.setReq r f).place = s.place := by
  funext r'
  rw [place, reqs_setReq]
  split <;> simp [hf, place]

/-- A request in hand has not completed and is nowhere else. -/
theorem Inv.in_hand (h : s.Inv careful (some r)) : (s.reqs r).freed = false ∧
    (s.reqs r).completions = 0 ∧ s.outstanding r = 0 ∧ s.place r = .idle ∧ r < s.nextReq := by
  have hfreed : (s.reqs r).freed = false := by
    by_contra hf
    exact (h.gone r (by simpa using hf)).2.2.1 rfl
  have htotal := h.total r hfreed
  simp only [Place.held] at htotal
  grind

/-- A change that neither moves a request nor completes it. -/
theorem Inv.setReq {f : AioForkState → AioForkState} (h : s.Inv careful hand)
    (hf : ∀ st, (f st).place = st.place ∧ (f st).completions = st.completions ∧
      (f st).freed = st.freed) : (s.setReq r f).Inv careful hand := by
  have hplace := place_setReq_same (s := s) (r := r) fun st => (hf st).1
  have hfreed : ∀ r', ((s.setReq r f).reqs r').freed = (s.reqs r').freed := by
    intro r'
    rw [reqs_setReq]
    split <;> simp [hf]
  have hcompletions : ∀ r', ((s.setReq r f).reqs r').completions = (s.reqs r').completions := by
    intro r'
    rw [reqs_setReq]
    split <;> simp [hf]
  refine { h with assigned := ?_, total := ?_, gone := ?_ }
  · rw [hplace]
    exact h.assigned
  · intro r' hr'
    rw [hplace, hcompletions]
    exact h.total r' (hfreed r' ▸ hr')
  · intro r' hr'
    rw [hplace]
    exact h.gone r' (hfreed r' ▸ hr')

/-- A request in hand goes to an idle helper. -/
theorem Inv.occupy (h : s.Inv careful (some r)) (hchild : child ∈ s.children)
    (hbusy : child.busy = false) : (s.occupy r child.pid).Inv careful none := by
  obtain ⟨hfreed, hcompletions, hout, hidle, hnew⟩ := h.in_hand
  have hnot : ¬ s.Saturated := fun hs => by simp [hs.2.2 child hchild] at hbusy
  have key : ((s.setReq r fun st => { st with place := .active child.pid }).setChild child.pid
      fun child => { child with busy := true, dontDelete := true }).Inv careful none :=
    { h with
      assigned := by
        have hplace := place_setReq (s := s) (r := r)
          (f := fun st => { st with place := .active child.pid }) fun _ => rfl
        exact hplace ▸ h.assigned.assign (fun _ => rfl) (fun _ => rfl) hchild hbusy hidle
      fresh := by
        intro c hc
        obtain ⟨c', hc', rfl⟩ := mem_updateChild.mp hc
        have := h.fresh c' hc'
        split <;> exact this
      numChildren := h.numChildren.trans (List.length_map _).symm
      maxChildren := fun hmax => (List.length_map _).trans_le (h.maxChildren hmax)
      waiting := fun hpending => .inr ((h.waiting hpending).resolve_left hnot)
      total := by
        intro r' hr'
        have htotal := h.total r'
        simp only [Share.setChild, Share.setReq, Share.place, outstanding, Place.held] at *
        grind
      gone := by
        intro r' hr'
        have hgone := h.gone r'
        simp only [Share.setChild, Share.setReq, Share.place, outstanding] at *
        grind }
  rw [Share.occupy]
  split
  · exact { key with }
  · exact key

theorem Inv.setWorker (h : s.Inv careful hand) (f : Worker → Worker) :
    (s.setWorker pid f).Inv careful hand :=
  { h with }

theorem Inv.sendCmd (h : s.Inv careful hand) : (s.sendCmd r pid).Inv careful hand := by
  have hsent : (s.setReq r fun st => { st with sentTo := some pid }).Inv careful hand :=
    h.setReq fun _ => ⟨rfl, rfl, rfl⟩
  exact { hsent with }

theorem Inv.giveBack (h : s.Inv careful hand) : (s.giveBack r).Inv careful hand :=
  h.setReq fun _ => ⟨rfl, rfl, rfl⟩

theorem length_filter_pid {children : List AioChild} (h : (children.map (·.pid)).Nodup)
    (hchild : child ∈ children) :
    (children.filter fun c => c.pid ≠ child.pid).length = children.length - 1 := by
  have herase : children.filter (fun c => c.pid ≠ child.pid) = children.erase child := by
    rw [(List.Nodup.of_map _ h).erase_eq_filter]
    apply List.filter_congr
    intro c hc
    have := List.inj_on_of_nodup_map h hc hchild
    grind
  rw [herase, List.length_erase_of_mem hchild]

/-- An idle helper leaves the pool; the queue is looked at afterwards. -/
theorem Inv.freeChild (h : s.Inv careful hand) (child : AioChild) (hchild : child ∈ s.children)
    (hbusy : child.busy = false)
    (hstack : .schedule ∈ s.stack) : (s.freeChild child.pid).Inv careful hand :=
  { h with
    assigned := by
      apply h.assigned.keep
      · exact (List.filter_sublist.map _).nodup h.assigned.pids
      · exact fun c hc _ => (List.mem_filter.mp hc).1
      · intro c hc hbusy
        exact h.assigned.idle_child (List.mem_filter.mp hc).1 hbusy
      · intro c hc hb
        apply List.mem_filter.mpr
        have := List.inj_on_of_nodup_map h.assigned.pids hc hchild
        refine ⟨hc, ?_⟩
        grind
    fresh := fun c hc => h.fresh c (List.mem_filter.mp hc).1
    numChildren := by
      show s.numChildren - 1 = _
      rw [h.numChildren]
      exact (length_filter_pid h.assigned.pids hchild).symm
    maxChildren := fun hmax => (List.length_filter_le _ _).trans (h.maxChildren hmax)
    waiting := fun _ => .inr hstack }

/-- The frames a function leaves on the stack are those of its caller. -/
theorem outstanding_push (frames : List Frame) (r : ReqId) :
    (s.push frames).outstanding r = frames.countP (Frame.completes r) + s.outstanding r :=
  List.countP_append

/-- The helper is let go; its request completes later, or it is in hand. -/
theorem Inv.release (h : s.Inv careful none) (hr : s.place r = .active pid) (failed : Bool)
    {after : List Frame} (hafter : ∀ r', after.countP (Frame.completes r') +
      (if hand = some r' then 1 else 0) = if r' = r then 1 else 0) :
    (s.aioForkReleaseChild r failed after).Inv careful hand := by
  obtain ⟨child, hchild, rfl⟩ := h.assigned.helper r pid hr
  have hplace := place_setReq (s := s) (r := r)
    (f := fun st => { st with place := .idle }) fun _ => rfl
  have hassigned := h.assigned.release (f := fun child => { child with busy := false })
    (fun _ => rfl) (fun _ => rfl) hr
  have key : (((s.setReq r fun st => { st with place := .idle }).setChild child.pid
      fun child => { child with busy := false }).push (.schedule :: after)).Inv careful hand :=
    { h with
      assigned := hplace ▸ hassigned
      fresh := by
        intro c hc
        obtain ⟨c', hc', rfl⟩ := mem_updateChild.mp hc
        have := h.fresh c' hc'
        split <;> exact this
      numChildren := h.numChildren.trans (List.length_map _).symm
      maxChildren := fun hmax => (List.length_map _).trans_le (h.maxChildren hmax)
      waiting := fun _ => .inr List.mem_cons_self
      total := by
        intro r' hr'
        have htotal := h.total r'
        have := hafter r'
        rw [outstanding_push, List.countP_cons]
        simp only [Share.push, Share.setChild, Share.setReq, Share.place, outstanding, Place.held,
          Frame.completes] at *
        grind
      gone := by
        intro r' hr'
        have hgone := h.gone r'
        have := hafter r'
        rw [outstanding_push, List.countP_cons]
        simp only [Share.push, Share.setChild, Share.setReq, Share.place, outstanding,
          Frame.completes] at *
        grind }
  have hr' : (s.reqs r).place = .active child.pid := hr
  rw [aioForkReleaseChild, hr']
  cases failed with
  | false => exact key
  | true =>
    have hlet : { child with busy := false } ∈
        updateChild child.pid (fun child => { child with busy := false }) s.children :=
      mem_updateChild.mpr ⟨child, hchild, (if_pos rfl).symm⟩
    exact key.freeChild { child with busy := false } hlet rfl List.mem_cons_self

/-- A new helper, when there may be one more. -/
theorem Inv.createAioChild (h : s.Inv careful hand)
    (hmay : s.maxChildren = 0 ∨ s.children.length < s.maxChildren) :
    s.createAioChild.Inv careful hand := by
  have hnew : ∀ r, s.place r ≠ .active s.nextPid := by
    intro r hr
    obtain ⟨child, hchild, hpid⟩ := h.assigned.helper r _ hr
    exact Nat.ne_of_lt (h.fresh child hchild) hpid
  exact
    { h with
      assigned := by
        apply h.assigned.keep
        · apply List.nodup_cons.mpr
          refine ⟨?_, h.assigned.pids⟩
          intro hmem
          obtain ⟨child, hchild, hpid⟩ := List.mem_map.mp hmem
          exact Nat.ne_of_lt (h.fresh child hchild) hpid
        · intro c hc hbusy
          have := List.mem_cons.mp hc
          grind
        · intro c hc hbusy
          rcases List.mem_cons.mp hc with rfl | hc
          · exact hnew
          · exact h.assigned.idle_child hc hbusy
        · exact fun c hc _ => List.mem_cons_of_mem _ hc
      fresh := by
        intro c hc
        show c.pid < s.nextPid + 1
        rcases List.mem_cons.mp hc with rfl | hc
        · exact Nat.lt_succ_self _
        · exact Nat.lt_succ_of_lt (h.fresh c hc)
      numChildren := congrArg (· + 1) h.numChildren
      maxChildren := by
        intro hmax
        have hne : s.maxChildren ≠ 0 := hmax
        show s.children.length + 1 ≤ s.maxChildren
        omega
      waiting := by
        intro hpending
        refine .inr ((h.waiting hpending).resolve_left ?_)
        rintro ⟨hmax, hlength, -⟩
        omega }

/-- A queued request is taken in hand. -/
theorem Inv.unqueue (h : s.Inv careful none) (hqueued : s.place r = .queued) :
    (s.aioForkUnqueue r).Inv careful (some r) := by
  have hmem : r ∈ s.pending := (h.assigned.queued r).mpr hqueued
  have hplace := place_setReq (s := s) (r := r)
    (f := fun st => { st with place := .idle }) fun _ => rfl
  rw [aioForkUnqueue, if_neg (not_not.mpr (show (s.reqs r).place = .queued from hqueued))]
  exact
    { h with
      assigned := hplace ▸ h.assigned.unqueue hqueued
      numPending := by
        show s.numPending - 1 = (s.pending.erase r).length
        rw [h.numPending, List.length_erase_of_mem hmem]
      maxPending := (List.erase_sublist.length_le).trans h.maxPending
      started := (List.erase_sublist.append_left s.startedLog).trans h.started
      waiting := fun _ => h.waiting (List.ne_nil_of_mem hmem)
      total := by
        intro r' hr'
        have htotal := h.total r'
        simp only [Share.setReq, Share.place, outstanding, Place.held] at *
        grind
      gone := by
        intro r' hr'
        have hgone := h.gone r'
        simp only [Share.setReq, Share.place, outstanding] at *
        grind }

theorem pending_unqueue {rest : List ReqId} (hqueued : s.place r = .queued)
    (hpending : s.pending = r :: rest) : (s.aioForkUnqueue r).pending = rest ∧
      (s.aioForkUnqueue r).queuedLog = s.queuedLog := by
  rw [aioForkUnqueue, if_neg (not_not.mpr (show (s.reqs r).place = .queued from hqueued))]
  exact ⟨by simp [hpending], rfl⟩

/-- The head of the queue is taken in hand to be started. -/
theorem Inv.startPending {rest : List ReqId} (h : s.Inv careful none)
    (hpending : s.pending = r :: rest) : (s.startPending r).Inv careful (some r) := by
  have hqueued : s.place r = .queued := (h.assigned.queued r).mp (by simp [hpending])
  have hunqueued := h.unqueue hqueued
  have heq := pending_unqueue hqueued hpending
  exact
    { hunqueued with
      started := by
        show (s.startedLog ++ [r] ++ (s.aioForkUnqueue r).pending).Sublist
          (s.aioForkUnqueue r).queuedLog
        have := h.started
        rw [heq.1, heq.2]
        rw [hpending] at this
        simpa using this }

/-- A request in hand completes. -/
theorem Inv.teventReqFinish (h : s.Inv careful (some r)) (result : Result) :
    (s.teventReqFinish r result).Inv careful none := by
  obtain ⟨hfreed, -, -, hidle, hnew⟩ := h.in_hand
  have hplace := place_setReq_same (s := s) (r := r)
    (f := fun st => { st with completions := st.completions + 1, result := some result })
    fun _ => rfl
  rw [Share.teventReqFinish, if_neg (by simp [hfreed])]
  exact
    { h with
      assigned := hplace ▸ h.assigned
      total := by
        intro r' hr'
        have htotal := h.total r'
        rw [hplace]
        simp only [Share.setReq, outstanding] at *
        grind
      gone := by
        intro r' hr'
        have hgone := h.gone r'
        rw [hplace]
        simp only [Share.setReq, outstanding] at *
        grind }

theorem syncCall_keeps (io : Except Errno Bytes) (st : AioForkState) :
    (syncCall io st).1.place = st.place ∧ (syncCall io st).1.completions = st.completions ∧
      (syncCall io st).1.freed = st.freed := by
  cases io with
  | error e => exact ⟨rfl, rfl, rfl⟩
  | ok bytes =>
    rw [syncCall]
    cases st.cmd <;> exact ⟨rfl, rfl, rfl⟩

theorem Inv.aioForkRunSync (h : s.Inv careful (some r)) (luck : Luck) :
    (s.aioForkRunSync luck r).Inv careful none :=
  (h.setReq fun st => syncCall_keeps luck.io st).teventReqFinish _

/-- A request in hand goes to the end of the queue. -/
theorem Inv.enqueue (h : s.Inv careful (some r)) (hsaturated : s.Saturated)
    (hroom : s.numPending < aioForkMaxPending) (hlast : ∀ r' ∈ s.queuedLog, r' < r) :
    (s.enqueue r).Inv careful none := by
  obtain ⟨hfreed, -, -, hidle, hnew⟩ := h.in_hand
  have hplace := place_setReq (s := s) (r := r)
    (f := fun st => { st with place := .queued }) fun _ => rfl
  exact
    { h with
      assigned := hplace ▸ h.assigned.enqueue hidle
      numPending := by
        show s.numPending + 1 = (s.pending ++ [r]).length
        simp [h.numPending]
      maxPending := by
        show (s.pending ++ [r]).length ≤ aioForkMaxPending
        have := h.numPending
        rw [List.length_append]
        simp only [List.length_singleton]
        omega
      started := by
        show (s.startedLog ++ (s.pending ++ [r])).Sublist (s.queuedLog ++ [r])
        rw [← List.append_assoc]
        exact h.started.append_right [r]
      logged := by
        show (s.queuedLog ++ [r]).Pairwise (· < ·) ∧ ∀ r' ∈ s.queuedLog ++ [r], r' < s.nextReq
        have := h.logged
        rw [List.pairwise_append]
        simp only [List.mem_append, List.mem_singleton]
        refine ⟨⟨this.1, by simp, by grind⟩, by grind⟩
      waiting := fun _ => .inl hsaturated
      total := by
        intro r' hr'
        have htotal := h.total r'
        simp only [Share.enqueue, Share.setReq, Share.place, outstanding, Place.held] at *
        grind
      gone := by
        intro r' hr'
        have hgone := h.gone r'
        simp only [Share.enqueue, Share.setReq, Share.place, outstanding] at *
        grind }

/-- A request that is new is in hand. -/
theorem Inv.createReq (h : s.Inv careful none) (cmd : CmdType) (n offset : Nat) (data : Bytes) :
    (s.createReq cmd n offset data).Inv careful (some s.nextReq) := by
  have hunused : (s.reqs s.nextReq).freed = false := by
    by_contra hf
    exact Nat.lt_irrefl _ (h.gone s.nextReq (by simpa using hf)).2.2.2
  have hnone := h.total s.nextReq hunused
  have hidle : s.place s.nextReq = .idle := by
    simp only [Place.held] at hnone
    grind
  have hplace : (s.createReq cmd n offset data).place = s.place := by
    funext r
    show (if r = s.nextReq then _ else s.reqs r : AioForkState).place = (s.reqs r).place
    split
    · rename_i hr
      exact hr ▸ hidle.symm
    · rfl
  exact
    { h with
      assigned := hplace ▸ h.assigned
      logged := ⟨h.logged.1, fun r hr => Nat.lt_succ_of_lt (h.logged.2 r hr)⟩
      total := by
        intro r hr
        have htotal := h.total r
        rw [hplace]
        simp only [Share.createReq, Share.setReq, outstanding, Place.held] at *
        grind
      gone := by
        intro r hr
        have hgone := h.gone r
        rw [hplace]
        simp only [Share.createReq, Share.setReq, outstanding] at *
        grind }

/-- The owner frees a request that is neither waiting nor at work nor about to complete. -/
theorem Inv.free (h : s.Inv careful hand) (hidle : s.place r = .idle)
    (hout : careful → s.outstanding r = 0) (hnew : r < s.nextReq) (hhand : hand = none ∨ hand = some r) :
    (s.setReq r fun st => { st with freed := true }).Inv careful none := by
  have hplace := place_setReq_same (s := s) (r := r)
    (f := fun st => { st with freed := true }) fun _ => rfl
  exact
    { h with
      assigned := hplace ▸ h.assigned
      total := by
        intro r' hr'
        have htotal := h.total r'
        rw [hplace]
        simp only [Share.setReq, outstanding] at *
        grind
      gone := by
        intro r' hr'
        have hgone := h.gone r'
        rw [hplace]
        simp only [Share.setReq, outstanding] at *
        grind }

/-! ### The stack -/

theorem Inv.pushActions (h : s.Inv careful hand) (script : List Action) :
    (s.push [.actions script]).Inv careful hand :=
  { h with
    waiting := fun hpending => (h.waiting hpending).imp_right fun hs => List.mem_cons_of_mem _ hs
    total := h.total
    gone := h.gone }

theorem Inv.popActions {script : List Action} {rest : List Frame} (h : s.Inv careful hand)
    (hstack : s.stack = .actions script :: rest) : s.pop.Inv careful hand := by
  have hout : ∀ r', s.pop.outstanding r' = s.outstanding r' := by
    intro r'
    simp [outstanding, Share.pop, hstack, Frame.completes]
  exact
    { h with
      waiting := fun hpending => (h.waiting hpending).imp_right fun hs => by
        simpa [Share.pop, hstack] using hs
      total := fun r' hr' => by
        rw [hout]
        exact h.total r' hr'
      gone := fun r' hr' => by
        rw [hout]
        exact h.gone r' hr' }

/-- The queue has been looked at. -/
theorem Inv.popSchedule {rest : List Frame} (h : s.Inv careful hand)
    (hstack : s.stack = .schedule :: rest) (hwaiting : s.pending ≠ [] → s.Saturated) : s.pop.Inv careful hand := by
  have hout : ∀ r', s.pop.outstanding r' = s.outstanding r' := by
    intro r'
    simp [outstanding, Share.pop, hstack, Frame.completes]
  exact
    { h with
      waiting := fun hpending => .inl (hwaiting hpending)
      total := fun r' hr' => by
        rw [hout]
        exact h.total r' hr'
      gone := fun r' hr' => by
        rw [hout]
        exact h.gone r' hr' }

/-- A completion that was to come happens now, unless the request is gone. -/
theorem Inv.complete {result : Result} {notify : Bool} {rest : List Frame} (h : s.Inv careful none)
    (hstack : s.stack = .complete r result notify :: rest) :
    (s.pop.teventReqFinish r result).Inv careful none := by
  have hout : ∀ r', s.outstanding r' = s.pop.outstanding r' + if r = r' then 1 else 0 := by
    intro r'
    simp [outstanding, Share.pop, hstack, Frame.completes, List.countP_cons]
  have hwaiting : s.pending ≠ [] → s.Saturated ∨ .schedule ∈ s.pop.stack := by
    intro hpending
    refine (h.waiting hpending).imp_right fun hs => ?_
    simpa [Share.pop, hstack] using hs
  by_cases hfreed : (s.reqs r).freed = false
  · have hpopped : s.pop.Inv careful (some r) :=
      { h with
        waiting := hwaiting
        total := fun r' hr' => by
          have htotal := h.total r' hr'
          have := hout r'
          show (s.reqs r').completions + s.pop.outstanding r' + (s.place r').held + _ =
            if r' < s.nextReq then 1 else 0
          grind
        gone := fun r' hr' => by
          have hgone := h.gone r' hr'
          have hne : r ≠ r' := by
            rintro rfl
            exact absurd (hfreed.symm.trans hr') (by decide)
          rw [hout, if_neg hne] at hgone
          exact ⟨hgone.1, hgone.2.1, by simpa using hne, hgone.2.2.2⟩ }
    exact hpopped.teventReqFinish result
  · have hgone := h.gone r (by simpa using hfreed)
    have hcareless : ¬ careful := by
      intro hcareful
      have := hgone.2.1 hcareful
      have := hout r
      grind
    have hfault : s.pop.teventReqFinish r result = { s.pop with fault := true } :=
      if_pos (show (s.reqs r).freed = true by simpa using hfreed)
    rw [hfault]
    exact
      { h with
        noFault := fun hcareful => absurd hcareful hcareless
        waiting := hwaiting
        total := fun r' hr' => by
          have hne : r ≠ r' := by
            rintro rfl
            exact hfreed hr'
          have htotal := h.total r' hr'
          rw [hout, if_neg hne] at htotal
          exact htotal
        gone := fun r' hr' =>
          ⟨(h.gone r' hr').1, fun hcareful => absurd hcareful hcareless, (h.gone r' hr').2.2⟩ }

end Moves

/-! ## The functions -/

section Functions

variable {s : Share} {r : ReqId} {child : AioChild} {luck : Luck} {hand : Option ReqId}
  {careful : Prop}

theorem findIdleChild_some (h : s.aioForkFindIdleChild = some child) :
    child ∈ s.children ∧ child.busy = false :=
  ⟨List.mem_of_find?_eq_some h, by simpa using List.find?_some h⟩

theorem findIdleChild_none (h : s.aioForkFindIdleChild = none) :
    ∀ child ∈ s.children, child.busy = true := by
  simpa [aioForkFindIdleChild] using h

theorem place_occupy {pid : Pid} : (s.occupy r pid).place r = .active pid := by
  show ((s.occupy r pid).reqs r).place = _
  rw [Share.occupy]
  split <;> simp [Share.setReq, Share.setChild, Share.setWorker]

/-- The request is at work, or its completion is still to come. -/
theorem Inv.aioForkDispatch (h : s.Inv careful (some r)) (hchild : child ∈ s.children)
    (hbusy : child.busy = false) (notify : Bool) :
    (s.aioForkDispatch luck r child.pid notify).1.Inv careful none := by
  have hoccupied := h.occupy hchild hbusy
  have hafter : ∀ e r', [Frame.complete r (.error e) notify].countP (Frame.completes r') +
      (if (none : Option ReqId) = some r' then 1 else 0) = if r' = r then 1 else 0 := by
    intro e r'
    simp [Frame.completes, List.countP_cons, eq_comm (a := r)]
  rw [Share.aioForkDispatch]
  cases luck.writeFd with
  | error e => exact hoccupied.release place_occupy true (hafter e)
  | ok _ =>
    have hsent : ((s.occupy r child.pid).sendCmd r child.pid).Inv careful none := hoccupied.sendCmd
    show (if luck.readPacketOk then _ else _ : Share × Bool).1.Inv careful none
    split
    · exact hsent
    · have hsame := place_setReq_same (s := s.occupy r child.pid) (r := r)
        (f := fun st => { st with sentTo := some child.pid }) fun _ => rfl
      have hplace : ((s.occupy r child.pid).sendCmd r child.pid).place r = .active child.pid :=
        (congrFun hsame r).trans place_occupy
      exact hsent.release hplace true (hafter ENOMEM)

theorem Inv.dispatchNew (h : s.Inv careful (some r)) (hchild : child ∈ s.children)
    (hbusy : child.busy = false) : (s.dispatchNew luck r child.pid).Inv careful none := by
  have hdispatched : (s.aioForkDispatch luck r child.pid false).1.Inv careful none :=
    h.aioForkDispatch hchild hbusy false
  rw [Share.dispatchNew]
  split
  · exact hdispatched.giveBack
  · exact hdispatched

theorem Inv.submitReq (h : s.Inv careful (some r)) (hlast : ∀ r' ∈ s.queuedLog, r' < r) :
    (s.submitReq luck r).Inv careful none := by
  rw [Share.submitReq]
  cases hidle : s.aioForkFindIdleChild with
  | some child =>
    obtain ⟨hchild, hbusy⟩ := findIdleChild_some hidle
    exact h.dispatchNew hchild hbusy
  | none =>
    show (if s.maxChildren = 0 ∨ s.numChildren < s.maxChildren then _
      else _ : Share).Inv careful none
    split
    · rename_i hmay
      rw [h.numChildren] at hmay
      split
      · have hnew : ⟨s.nextPid, false, false⟩ ∈ s.createAioChild.children := List.mem_cons_self
        exact (h.createAioChild hmay).dispatchNew hnew rfl
      · exact (h.aioForkRunSync luck).giveBack
    · rename_i hmay
      split
      · rename_i hroom
        rw [h.numChildren, not_or, Nat.not_lt] at hmay
        have hsaturated : s.Saturated :=
          ⟨hmay.1, Nat.le_antisymm (h.maxChildren hmay.1) hmay.2, findIdleChild_none hidle⟩
        exact (h.enqueue hsaturated hroom hlast).giveBack
      · exact (h.aioForkRunSync luck).giveBack

theorem Inv.initAioChildren (h : s.Inv careful hand)
    (hallow : careful → s.cleanupEvent = true ∨ luck.initOk = true ∨ s.unreferenced = true) :
    (s.initAioChildren luck).Inv careful hand := by
  rw [Share.initAioChildren]
  split
  · exact h
  · split
    · exact { h with }
    · split
      · rename_i hfree
        simp only [unreferenced, Bool.and_eq_true, List.isEmpty_iff, List.all_eq_true,
          Bool.not_eq_true'] at hfree
        obtain ⟨⟨hpending, hidle⟩, -⟩ := hfree
        exact
          { h with
            assigned := h.assigned.keep List.nodup_nil (by simp) (by simp) (by grind)
            fresh := by simp
            numChildren := rfl
            maxChildren := fun _ => Nat.zero_le _
            waiting := fun hne => absurd hpending hne }
      · exact { h with noFault := fun hcareful => by grind }

/-- What an owner may do: the timer of the pool is there or can be set, unless nothing depends on it,
and no request is freed of which the completion is still to come. -/
def Careful (s : Share) (luck : Luck) : Action → Prop
  | .submit _ _ _ _ => s.cleanupEvent = true ∨ luck.initOk = true ∨ s.unreferenced = true
  | .free r => ∀ result notify, Frame.complete r result notify ∉ s.stack

theorem Inv.aioForkSend (h : s.Inv careful none) {cmd : CmdType} {n offset : Nat} {data : Bytes}
    (hallow : careful → s.Careful luck (.submit cmd n offset data)) :
    (s.aioForkSend luck cmd n offset data).Inv careful none := by
  have hnew := h.createReq cmd n offset data
  rw [Share.aioForkSend]
  show (if cmd ≠ .fsync ∧ aioMapSize < n then _ else _ : Share).Inv careful none
  split
  · exact (hnew.teventReqFinish _).giveBack
  · have hinit : ((s.createReq cmd n offset data).initAioChildren luck).Inv careful
        (some s.nextReq) :=
      hnew.initAioChildren hallow
    show (if ((s.createReq cmd n offset data).initAioChildren luck).cleanupEvent then _
      else _ : Share).Inv careful none
    split
    · apply hinit.submitReq
      intro r' hr'
      apply h.logged.2 r'
      rw [Share.initAioChildren] at hr'
      split at hr'
      · exact hr'
      · split at hr'
        · exact hr'
        · split at hr' <;> exact hr'
    · exact (hinit.teventReqFinish _).giveBack

theorem outstanding_eq_zero (h : ∀ result notify, Frame.complete r result notify ∉ s.stack) :
    s.outstanding r = 0 := by
  apply List.countP_eq_zero.mpr
  intro frame hframe
  cases frame with
  | complete r' result notify =>
    simp only [Frame.completes, beq_iff_eq]
    rintro rfl
    exact h result notify hframe
  | schedule => simp [Frame.completes]
  | actions script => simp [Frame.completes]

theorem Inv.freeReq (h : s.Inv careful none)
    (hallow : careful → ∀ result notify, Frame.complete r result notify ∉ s.stack) :
    (s.freeReq r).Inv careful none := by
  rw [Share.freeReq]
  split
  · exact h
  · rename_i hguard
    simp only [not_or, Nat.not_le] at hguard
    obtain ⟨hnew, -, hfreed⟩ := hguard
    rw [aioForkUnqueue]
    cases hplace : (s.reqs r).place with
    | idle =>
      have hrelease : s.aioForkReleaseChild r true [] = s := by
        rw [aioForkReleaseChild, hplace]
      rw [if_pos (by simp), hrelease]
      exact h.free hplace (fun hcareful => outstanding_eq_zero (hallow hcareful)) hnew (.inl rfl)
    | queued =>
      have hunqueued := h.unqueue hplace
      obtain ⟨-, -, hout, hidle, hnew⟩ := hunqueued.in_hand
      rw [aioForkUnqueue, if_neg (by simp [hplace])] at hunqueued hout hidle hnew
      rw [if_neg (by simp), aioForkReleaseChild, show (reqs _ r).place = .idle from hidle]
      exact hunqueued.free hidle (fun _ => hout) hnew (.inr rfl)
    | active pid =>
      rw [if_pos (by simp)]
      have hreleased : (s.aioForkReleaseChild r true []).Inv careful (some r) :=
        h.release hplace true (by simp [eq_comm])
      obtain ⟨-, -, hout, hidle, hnew⟩ := hreleased.in_hand
      exact hreleased.free hidle (fun _ => hout) hnew (.inr rfl)

theorem children_startPending : (s.startPending r).children = s.children := by
  rw [Share.startPending, aioForkUnqueue]
  split <;> rfl

theorem Inv.perform (h : s.Inv careful none) {action : Action}
    (hallow : careful → s.Careful luck action) :
    (s.perform luck action).Inv careful none := by
  cases action with
  | submit cmd n offset data => exact h.aioForkSend hallow
  | free r => exact h.freeReq hallow

theorem Inv.aioForkSchedulePending {rest : List Frame} (h : s.Inv careful none)
    (hstack : s.stack = .schedule :: rest) : (s.aioForkSchedulePending luck).Inv careful none := by
  rw [Share.aioForkSchedulePending]
  cases hpending : s.pending with
  | nil => exact h.popSchedule hstack fun hne => absurd hpending hne
  | cons r others =>
    have hstarted := h.startPending hpending
    cases hidle : s.aioForkFindIdleChild with
    | some child =>
      obtain ⟨hchild, hbusy⟩ := findIdleChild_some hidle
      exact hstarted.aioForkDispatch (by rw [children_startPending]; exact hchild) hbusy true
    | none =>
      show (if s.maxChildren ≠ 0 ∧ s.maxChildren ≤ s.numChildren then _
        else _ : Share).Inv careful none
      split
      · rename_i hfull
        rw [h.numChildren] at hfull
        apply h.popSchedule hstack
        intro _
        exact ⟨hfull.1, Nat.le_antisymm (h.maxChildren hfull.1) hfull.2, findIdleChild_none hidle⟩
      · rename_i hmay
        rw [h.numChildren] at hmay
        split
        · have hcreated := h.createAioChild (by omega)
          have hnew : ⟨s.nextPid, false, false⟩ ∈ (s.createAioChild.startPending r).children := by
            rw [children_startPending]
            exact List.mem_cons_self
          exact (hcreated.startPending hpending).aioForkDispatch hnew rfl true
        · exact (hstarted.aioForkRunSync luck).pushActions _

theorem answered_keeps (st : AioForkState) (map : Bytes) (ret : RwRet) :
    (answered st map ret).1.place = st.place ∧
      (answered st map ret).1.completions = st.completions ∧
      (answered st map ret).1.freed = st.freed := by
  rw [answered]
  split
  · split <;> exact ⟨rfl, rfl, rfl⟩
  · exact ⟨rfl, rfl, rfl⟩

theorem countP_complete (result : Result) (r' : ReqId) :
    [Frame.complete r result true].countP (Frame.completes r') +
      (if (none : Option ReqId) = some r' then 1 else 0) = if r' = r then 1 else 0 := by
  simp [Frame.completes, List.countP_cons, eq_comm (a := r)]

theorem Inv.receiveReply {pid : Pid} (h : s.Inv careful none) (hplace : s.place r = .active pid)
    (ret : RwRet) : (s.receiveReply r pid ret).Inv careful none := by
  have hcopied : ((s.setWorker pid fun worker => { worker with reply := none }).setReq r
      fun st => (answered st (s.workers pid).map ret).1).Inv careful none :=
    (h.setWorker _).setReq fun st => answered_keeps st _ _
  have hplace' : ((s.setWorker pid fun worker => { worker with reply := none }).setReq r
      fun st => (answered st (s.workers pid).map ret).1).place r = .active pid := by
    show (if r = r then _ else s.reqs r : AioForkState).place = _
    rw [if_pos rfl]
    exact (answered_keeps _ _ _).1.trans hplace
  exact hcopied.release hplace' false (countP_complete _)

theorem Inv.aioForkDone (h : s.Inv careful none) (r : ReqId) (received : Except Errno Unit) :
    (s.aioForkDone r received).Inv careful none := by
  cases hplace : (s.reqs r).place with
  | idle => simpa [Share.aioForkDone, hplace] using h
  | queued => simpa [Share.aioForkDone, hplace] using h
  | active pid =>
    cases received with
    | error e =>
      have hreleased := h.release hplace true (countP_complete (.error e))
      simpa [Share.aioForkDone, hplace] using hreleased
    | ok received =>
      cases hreply : (s.workers pid).reply with
      | none => simpa [Share.aioForkDone, hplace, hreply] using h
      | some ret => simpa [Share.aioForkDone, hplace, hreply] using h.receiveReply hplace ret

/-- A sweep takes away idle helpers only. -/
theorem Inv.aioChildCleanup (h : s.Inv careful none) (hstack : s.stack = []) :
    (s.aioChildCleanup luck).Inv careful none := by
  have hmem : ∀ child', child' ∈ (s.aioChildCleanup luck).children ↔ ∃ child ∈ s.children,
      (child.busy = true ∨ child.dontDelete = true) ∧
      child' = if child.busy then child else { child with dontDelete := false } := by
    intro child'
    simp only [Share.aioChildCleanup, List.mem_map, List.mem_filter, Bool.or_eq_true]
    grind
  have hpids : (s.aioChildCleanup luck).children.map (·.pid) =
      (s.children.filter fun child => child.busy || child.dontDelete).map (·.pid) := by
    simp only [Share.aioChildCleanup, List.map_map]
    apply List.map_congr_left
    intro child _
    simp only [Function.comp]
    split <;> rfl
  have hlength : (s.aioChildCleanup luck).children.length ≤ s.children.length := by
    simp [Share.aioChildCleanup, List.length_filter_le]
  exact
    { h with
      assigned := by
        apply h.assigned.keep
        · rw [hpids]
          exact (List.filter_sublist.map _).nodup h.assigned.pids
        · intro child' hchild' hbusy
          obtain ⟨child, hchild, -, rfl⟩ := (hmem child').mp hchild'
          grind
        · intro child' hchild' hbusy
          obtain ⟨child, hchild, -, rfl⟩ := (hmem child').mp hchild'
          have := h.assigned.idle_child hchild
          grind
        · intro child hchild hbusy
          exact (hmem child).mpr ⟨child, hchild, .inl hbusy, by simp [hbusy]⟩
      fresh := by
        intro child' hchild'
        obtain ⟨child, hchild, -, rfl⟩ := (hmem child').mp hchild'
        have := h.fresh child hchild
        split <;> exact this
      numChildren := by
        show s.numChildren - (s.children.length - (s.aioChildCleanup luck).children.length) = _
        rw [h.numChildren]
        omega
      maxChildren := fun hmax => hlength.trans (h.maxChildren hmax)
      waiting := by
        intro hpending
        obtain ⟨hmax, hfull, hall⟩ := (h.waiting hpending).resolve_right (by simp [hstack])
        have hkept : (s.aioChildCleanup luck).children = s.children := by
          simp only [Share.aioChildCleanup]
          rw [List.filter_eq_self.mpr (by simp +contextual [hall])]
          apply (List.map_congr_left fun child hchild => if_pos (hall child hchild)).trans
          exact List.map_id _
        left
        rw [Saturated, hkept]
        exact ⟨hmax, hfull, hall⟩ }

theorem Careful.popActions {action action' : Action} {script : List Action} {rest : List Frame}
    (h : s.Careful luck action) (hstack : s.stack = .actions (action' :: script) :: rest) :
    (s.pop.push [.actions script]).Careful luck action := by
  cases action with
  | submit cmd n offset data =>
    simpa [Careful, unreferenced, Share.push, Share.pop, hstack] using h
  | free r =>
    simpa [Careful, Share.push, Share.pop, hstack] using h

theorem Inv.resume (h : s.Inv careful none)
    (hallow : careful → ∀ action, s.nextAction = some action → s.Careful luck action) :
    (s.resume luck).Inv careful none := by
  rw [Share.resume]
  cases hstack : s.stack with
  | nil => exact h
  | cons frame rest =>
    cases frame with
    | schedule => exact h.aioForkSchedulePending hstack
    | complete r result notify =>
      have hcompleted := h.complete hstack
      cases notify with
      | true => exact hcompleted.pushActions _
      | false => exact hcompleted.giveBack
    | actions script =>
      cases script with
      | nil => exact h.popActions hstack
      | cons action script =>
        apply ((h.popActions hstack).pushActions script).perform
        intro hcareful
        exact (hallow hcareful action (by rw [nextAction, hstack])).popActions hstack

theorem Inv.work (h : s.Inv careful none) (pid : Pid) (work : Work) :
    (s.work pid work).Inv careful none := by
  rw [Share.work]
  cases (s.workers pid).job with
  | none => exact h
  | some job =>
    cases work with
    | reads bytes =>
      show (if job.cmd = .read ∧ bytes.length ≤ job.n then _ else s : Share).Inv careful none
      split
      · exact (h.setWorker _).setReq fun _ => ⟨rfl, rfl, rfl⟩
      · exact h
    | writes =>
      show (if job.cmd.writes then _ else s : Share).Inv careful none
      split
      · exact { h with }
      · exact h
    | replies ret =>
      show (if honest (s.reqs job.req) job ret then _ else s : Share).Inv careful none
      split
      · exact h.setWorker _
      · exact h

/-- One step keeps the invariant. -/
theorem Inv.step {allow : Share → Luck → Action → Prop} {s' : Share} (h : s.Inv careful none)
    (hallow : careful → ∀ s luck action, allow s luck action → s.Careful luck action)
    (hstep : Step allow s s') : s'.Inv careful none := by
  cases hstep with
  | act luck action _ _ hact => exact h.perform fun hcareful => hallow hcareful s luck action hact
  | done r received _ _ => exact h.aioForkDone r received
  | cleanup luck _ hstack => exact h.aioChildCleanup hstack
  | resume luck _ _ hact =>
    exact h.resume fun hcareful action hnext => hallow hcareful s luck action (hact action hnext)
  | work pid work _ => exact h.work pid work

theorem inv_connected (maxChildren : Nat) : (connected maxChildren).Inv careful none where
  noFault _ := rfl
  assigned := ⟨List.nodup_nil, List.nodup_nil, by simp [connected, place, unusedReq],
    by simp [connected], by simp [connected, place, unusedReq], by simp [connected, place, unusedReq]⟩
  fresh := by simp [connected]
  numChildren := rfl
  maxChildren _ := Nat.zero_le _
  numPending := rfl
  maxPending := Nat.zero_le _
  started := List.nil_sublist _
  logged := ⟨List.Pairwise.nil, by simp [connected]⟩
  waiting hne := absurd rfl hne
  total r _ := by simp [connected, place, unusedReq, outstanding, Place.held]
  gone r hr := by simp [connected, unusedReq] at hr

end Functions

end Share

end TimeCapsule.AioFork
