import Goldfish.Async.DefaultLooper

/-!
# Goldfish.Async.TimerInvariant

**What holds of the timers whenever any code runs that uses them.** `Discipline` is
that statement about one state of the looper, with the record of what was armed and
fired; `Inv` adds what carries it from step to step:

* a node is erased from the lists and a new one inserted (`Placed`), so that the
  lists hold the active timers and `mTimers` their nodes;
* a timer leaves a list in one way (`Inv.unlist`), whichever list it is in and
  whether it was stopped, restarted, fired or deleted;
* it enters the active list behind every timer that does not expire later
  (`Inv.arm`), and the pending one at the end (`Queueing.move`);
* a timer in neither list may come and go (`Inv.offList`);
* what is fired was armed, is due, and has not been fired before (`Inv.log`).
-/

namespace Goldfish.Async

open Goldfish.Lib

namespace DefaultLooper

variable {L L' : DefaultLooper} {t : TimerId} {T : Timer} {n : Node TimerId}

/-! ### The discipline -/

/-- The nodes of both lists. -/
def nodes (L : DefaultLooper) : List (Node TimerId) := L.mActiveTimers ++ L.mPendingTimers

/-- The timers of two nodes are related. -/
def Related (L : DefaultLooper) (R : Timer → Timer → Prop) (m n : Node TimerId) : Prop :=
  ∀ A B, L.objects m.val = some A → L.objects n.val = some B → R A B

/-- An earlier deadline, or the same one armed earlier. -/
def Before (A B : Timer) : Prop :=
  A.mDeadline < B.mDeadline ∨ A.mDeadline = B.mDeadline ∧ A.arming < B.arming

/-- No later deadline. -/
def NotAfter (A B : Timer) : Prop := A.mDeadline ≤ B.mDeadline

/-- The discipline of the timers, in one state. -/
structure Discipline (L : DefaultLooper) : Prop where
  /-- What is in a list is a timer. -/
  live : ∀ n ∈ L.nodes, ∃ T, L.objects n.val = some T
  /-- By deadline, and equal deadlines in arming order. -/
  sorted : L.mActiveTimers.Pairwise (L.Related Before)
  /-- At most one place in one list. -/
  oneList : (L.nodes.map Node.val).Nodup
  /-- `mTimers` holds that place. -/
  position : ∀ n ∈ L.nodes, L.mTimers n.val = some (.node n.id)
  /-- The active timers are those with a finite deadline, but for those about to be fired. -/
  listed : ∀ t T, L.objects t = some T → (T.isActive ↔ t ∈ L.nodes.map Node.val)
  /-- Outside of the callbacks of an iteration, nothing is about to be fired. -/
  settled : L.phase = .firing ∨ L.mPendingTimers = []
  /-- No arming is fired twice. -/
  once : (L.fired.map Firing.arming).Nodup
  /-- What is fired was armed, and for no later time. -/
  onTime : ∀ f ∈ L.fired, L.armings[f.arming]? = some ⟨f.timer, f.deadline⟩ ∧ f.deadline ≤ f.time
  /-- One iteration fires by deadline. -/
  inOrder : L.fired.Pairwise fun f g => f.iteration = g.iteration → f.deadline ≤ g.deadline

/-- The discipline, with what carries it. -/
structure Inv (L : DefaultLooper) : Prop extends Discipline L where
  distinct : NodeList.Distinct L.nodes
  fresh : ∀ n ∈ L.nodes, n.id < L.nextNode
  notPending : ∀ n ∈ L.mActiveTimers, ∀ T, L.objects n.val = some T → T.mPending = false
  expired : ∀ n ∈ L.mPendingTimers, ∀ T, L.objects n.val = some T →
    T.mPending = true ∧ T.mDeadline ≤ L.nowMs
  pendingActive : ∀ t T, L.objects t = some T → T.mPending = true → T.isActive
  pendingSorted : L.mPendingTimers.Pairwise (L.Related NotAfter)
  armed : ∀ t T, L.objects t = some T → T.isActive →
    L.armings[T.arming]? = some ⟨t, T.mDeadline⟩ ∧ ∀ f ∈ L.fired, f.arming ≠ T.arming
  current : ∀ f ∈ L.fired, f.iteration ≤ L.iteration
  next : ∀ f ∈ L.fired, f.iteration = L.iteration → ∀ n ∈ L.mPendingTimers, ∀ T,
    L.objects n.val = some T → f.deadline ≤ T.mDeadline

theorem mem_nodes : n ∈ L.nodes ↔ n ∈ L.mActiveTimers ∨ n ∈ L.mPendingTimers := List.mem_append

theorem mem_nodes_of_active (hn : n ∈ L.mActiveTimers) : n ∈ L.nodes := mem_nodes.mpr (.inl hn)

theorem mem_nodes_of_pending (hn : n ∈ L.mPendingTimers) : n ∈ L.nodes := mem_nodes.mpr (.inr hn)

@[simp] theorem isActive_iff : T.isActive = true ↔ T.mDeadline ≠ kDurationInfinite := by
  simp [Timer.isActive]

@[simp] theorem isActive_eq_false : T.isActive = false ↔ T.mDeadline = kDurationInfinite := by
  simp [Timer.isActive]

@[simp] theorem deref_eq_ok : L.deref t = .ok T ↔ L.objects t = some T := by
  unfold deref
  cases L.objects t <;> simp

@[simp] theorem setObject_objects : (L.setObject t T).objects = Function.update L.objects t (some T) := rfl
@[simp] theorem setObject_nodes : (L.setObject t T).nodes = L.nodes := rfl

theorem update_eq_some {S : Timer} {objects : TimerId → Option Timer} {s : TimerId} :
    Function.update objects t (some T) s = some S ↔ s = t ∧ T = S ∨ s ≠ t ∧ objects s = some S := by
  by_cases hs : s = t
  · simp [hs]
  · simp [hs]

/-- Timers that have not changed are related as before. -/
theorem pairwise_related {R : Timer → Timer → Prop} {l : List (Node TimerId)}
    (hsame : ∀ m ∈ l, L'.objects m.val = L.objects m.val) (h : l.Pairwise (L.Related R)) :
    l.Pairwise (L'.Related R) := by
  refine h.imp_of_mem fun hm hn hR A B hA hB => ?_
  exact hR A B (hsame _ hm ▸ hA) (hsame _ hn ▸ hB)

/-! ### The places -/

/-- The nodes of both lists are those of the active timers, and each timer knows its own. -/
structure Placed (objects : TimerId → Option Timer) (mTimers : TimerId → Option Position)
    (nodes : List (Node TimerId)) (next : Nat) : Prop where
  live : ∀ n ∈ nodes, ∃ T, objects n.val = some T
  oneList : (nodes.map Node.val).Nodup
  position : ∀ n ∈ nodes, mTimers n.val = some (.node n.id)
  listed : ∀ t T, objects t = some T → (T.isActive ↔ t ∈ nodes.map Node.val)
  distinct : NodeList.Distinct nodes
  fresh : ∀ n ∈ nodes, n.id < next

namespace Placed

variable {objects : TimerId → Option Timer} {mTimers : TimerId → Option Position}
  {nodes nodes' : List (Node TimerId)} {next : Nat}

theorem val_ne (h : Placed objects mTimers nodes next) (hn : n ∈ nodes) {m : Node TimerId} (hm : m ∈ nodes)
    (hne : m ≠ n) : m.val ≠ n.val :=
  fun heq => hne (List.inj_on_of_nodup_map h.oneList hm hn heq)

/-- A timer that is not active any more leaves its place. -/
theorem erase (h : Placed objects mTimers nodes next) (hn : n ∈ nodes) (hsub : nodes'.Sublist nodes)
    (hmem : ∀ m, m ∈ nodes' ↔ m ∈ nodes ∧ m ≠ n) (hT : T.isActive = false) :
    Placed (Function.update objects n.val (some T)) mTimers nodes' next := by
  have hne : ∀ m ∈ nodes', m.val ≠ n.val :=
    fun m hm => h.val_ne hn ((hmem m).mp hm).1 ((hmem m).mp hm).2
  constructor
  case live =>
    intro m hm
    rw [Function.update_of_ne (hne m hm)]
    exact h.live m (hsub.subset hm)
  case oneList => exact h.oneList.sublist (hsub.map _)
  case position => exact fun m hm => h.position m (hsub.subset hm)
  case listed =>
    intro s S hS
    rcases update_eq_some.mp hS with ⟨rfl, rfl⟩ | ⟨hs, hS⟩
    · rw [hT]
      refine iff_of_false (by simp) fun hlist => ?_
      obtain ⟨m, hm, heq⟩ := List.mem_map.mp hlist
      exact hne m hm heq
    · rw [h.listed s S hS, List.mem_map, List.mem_map]
      constructor
      · rintro ⟨m, hm, rfl⟩
        exact ⟨m, (hmem m).mpr ⟨hm, fun heq => hs (heq ▸ rfl)⟩, rfl⟩
      · rintro ⟨m, hm, rfl⟩
        exact ⟨m, hsub.subset hm, rfl⟩
  case distinct => exact h.distinct.sublist (hsub.map _)
  case fresh => exact fun m hm => h.fresh m (hsub.subset hm)

/-- A timer that has become active enters one of the lists, in a node of its own. -/
theorem insert (h : Placed objects mTimers nodes next) (hout : t ∉ nodes.map Node.val)
    (hperm : nodes'.Perm (⟨next, t⟩ :: nodes)) (hT : T.isActive) :
    Placed (Function.update objects t (some T)) (Function.update mTimers t (some (.node next))) nodes'
      (next + 1) := by
  have hne : ∀ m ∈ nodes, m.val ≠ t := fun m hm heq => hout (heq ▸ List.mem_map_of_mem hm)
  constructor
  case live =>
    intro m hm
    rcases List.mem_cons.mp (hperm.subset hm) with rfl | hm
    · exact ⟨T, Function.update_self ..⟩
    · rw [Function.update_of_ne (hne m hm)]
      exact h.live m hm
  case oneList => exact (hperm.map Node.val).nodup_iff.mpr (List.nodup_cons.mpr ⟨hout, h.oneList⟩)
  case position =>
    intro m hm
    rcases List.mem_cons.mp (hperm.subset hm) with rfl | hm
    · exact Function.update_self ..
    · exact (Function.update_of_ne (hne m hm) ..).trans (h.position m hm)
  case listed =>
    intro s S hS
    rw [(hperm.map Node.val).mem_iff, List.map_cons, List.mem_cons]
    rcases update_eq_some.mp hS with ⟨rfl, rfl⟩ | ⟨hs, hS⟩
    · exact iff_of_true hT (.inl rfl)
    · rw [h.listed s S hS, or_iff_right hs]
  case distinct =>
    refine (hperm.map Node.id).nodup_iff.mpr (List.nodup_cons.mpr ⟨fun hid => ?_, h.distinct⟩)
    obtain ⟨m, hm, heq⟩ := List.mem_map.mp hid
    exact Nat.ne_of_lt (h.fresh m hm) heq
  case fresh =>
    intro m hm
    rcases List.mem_cons.mp (hperm.subset hm) with rfl | hm
    · exact Nat.lt_succ_self _
    · exact Nat.lt_succ_of_lt (h.fresh m hm)

end Placed

theorem new_inv (now : Int) : Inv (new now) where
  live := by simp [nodes, new]
  sorted := List.Pairwise.nil
  oneList := List.nodup_nil
  position := by simp [nodes, new]
  listed := by simp [new]
  settled := .inr rfl
  once := List.nodup_nil
  onTime := by simp [new]
  inOrder := List.Pairwise.nil
  distinct := List.nodup_nil
  fresh := by simp [nodes, new]
  notPending := by simp [new]
  expired := by simp [new]
  pendingActive := by simp [new]
  pendingSorted := List.Pairwise.nil
  armed := by simp [new]
  current := by simp [new]
  next := by simp [new]

section Inv

variable (h : Inv L)
include h

theorem Inv.placed : Placed L.objects L.mTimers L.nodes L.nextNode :=
  ⟨h.live, h.oneList, h.position, h.listed, h.distinct, h.fresh⟩

/-- The node of an active timer, and where it is. -/
theorem Inv.node_of_active (hT : L.objects t = some T) (hactive : T.isActive) :
    ∃ n, n.val = t ∧ L.mTimers t = some (.node n.id) ∧
      (T.mPending = false ∧ n ∈ L.mActiveTimers ∨ T.mPending = true ∧ n ∈ L.mPendingTimers) := by
  obtain ⟨n, hn, rfl⟩ := List.mem_map.mp ((h.listed t T hT).mp hactive)
  refine ⟨n, rfl, h.position n hn, ?_⟩
  rcases mem_nodes.mp hn with hact | hpend
  · exact .inl ⟨h.notPending n hact T hT, hact⟩
  · exact .inr ⟨(h.expired n hpend T hT).1, hpend⟩

theorem Inv.not_mem_nodes (hT : L.objects t = some T) (hactive : T.isActive = false) :
    t ∉ L.nodes.map Node.val := by
  intro hmem
  simp [(h.listed t T hT).mpr hmem] at hactive

/-- A timer in no list is not active. -/
theorem Inv.off_of_not_mem (hT : L.objects t = some T) (hout : t ∉ L.nodes.map Node.val) :
    T.isActive = false ∧ T.mPending = false := by
  have hinactive : T.isActive = false := by
    by_contra hact
    exact hout ((h.listed t T hT).mp (by simpa using hact))
  refine ⟨hinactive, ?_⟩
  by_contra hpend
  simp [h.pendingActive t T hT (by simpa using hpend)] at hinactive

/-- A timer leaves the list it is in. -/
theorem Inv.unlist (hn : n ∈ L.nodes) {active pending : List (Node TimerId)}
    (hactive : active.Sublist L.mActiveTimers) (hpending : pending.Sublist L.mPendingTimers)
    (hmem : ∀ m, m ∈ active ++ pending ↔ m ∈ L.nodes ∧ m ≠ n) (hT : T.isActive = false)
    (hflag : T.mPending = false) :
    Inv ({ L with mActiveTimers := active, mPendingTimers := pending }.setObject n.val T) := by
  have hplaced := h.placed.erase hn (hactive.append hpending) hmem hT
  have hsame : ∀ m ∈ active ++ pending, Function.update L.objects n.val (some T) m.val = L.objects m.val := by
    intro m hm
    obtain ⟨hold, hne⟩ := (hmem m).mp hm
    exact Function.update_of_ne (h.placed.val_ne hn hold hne) _ _
  have hmem_a : ∀ m ∈ active, m ∈ active ++ pending := fun m hm => List.mem_append_left _ hm
  have hmem_p : ∀ m ∈ pending, m ∈ active ++ pending := fun m hm => List.mem_append_right _ hm
  constructor
  case toDiscipline =>
    constructor
    case live => exact hplaced.live
    case sorted => exact pairwise_related (fun m hm => hsame m (hmem_a m hm)) (h.sorted.sublist hactive)
    case oneList => exact hplaced.oneList
    case position => exact hplaced.position
    case listed => exact hplaced.listed
    case settled =>
      refine h.settled.imp_right fun hnil => ?_
      exact List.sublist_nil.mp (hnil ▸ hpending)
    case once => exact h.once
    case onTime => exact h.onTime
    case inOrder => exact h.inOrder
  case distinct => exact hplaced.distinct
  case fresh => exact hplaced.fresh
  case notPending =>
    intro m hm S hS
    rw [setObject_objects, hsame m (hmem_a m hm)] at hS
    exact h.notPending m (hactive.subset hm) S hS
  case expired =>
    intro m hm S hS
    rw [setObject_objects, hsame m (hmem_p m hm)] at hS
    exact h.expired m (hpending.subset hm) S hS
  case pendingActive =>
    intro s S hS hpend
    rcases update_eq_some.mp hS with ⟨-, rfl⟩ | ⟨-, hS⟩
    · simp [hflag] at hpend
    · exact h.pendingActive s S hS hpend
  case pendingSorted =>
    exact pairwise_related (fun m hm => hsame m (hmem_p m hm)) (h.pendingSorted.sublist hpending)
  case armed =>
    intro s S hS hact
    rcases update_eq_some.mp hS with ⟨-, rfl⟩ | ⟨-, hS⟩
    · simp [hT] at hact
    · exact h.armed s S hS hact
  case current => exact h.current
  case next =>
    intro f hf hit m hm S hS
    rw [setObject_objects, hsame m (hmem_p m hm)] at hS
    exact h.next f hf hit m (hpending.subset hm) S hS

/-- A timer enters the active list, behind those that do not expire later. -/
theorem Inv.arm (hT : L.objects t = some T) (hinactive : T.isActive = false) {d : Int}
    (hd : d ≠ kDurationInfinite) {before after : List (Node TimerId)}
    (hsplit : before ++ after = L.mActiveTimers)
    (hbefore : ∀ m ∈ before, ∀ M, L.objects m.val = some M → M.mDeadline ≤ d)
    (hafter : ∀ m ∈ after, ∀ M, L.objects m.val = some M → d < M.mDeadline) :
    Inv { L with
      objects := Function.update L.objects t (some ⟨d, T.mPending, L.armings.length⟩)
      mTimers := Function.update L.mTimers t (some (.node L.nextNode))
      mActiveTimers := before ++ ⟨L.nextNode, t⟩ :: after
      nextNode := L.nextNode + 1
      armings := L.armings ++ [⟨t, d⟩] } := by
  have hflag : T.mPending = false := (h.off_of_not_mem hT (h.not_mem_nodes hT hinactive)).2
  have hout := h.not_mem_nodes hT hinactive
  have hperm : ((before ++ ⟨L.nextNode, t⟩ :: after) ++ L.mPendingTimers).Perm
      (⟨L.nextNode, t⟩ :: L.nodes) := by
    rw [nodes, ← hsplit]
    exact List.perm_middle.append_right _
  have hplaced := h.placed.insert (T := ⟨d, T.mPending, L.armings.length⟩) hout hperm (isActive_iff.mpr hd)
  have hsame : ∀ m ∈ L.nodes, Function.update L.objects t (some ⟨d, T.mPending, L.armings.length⟩) m.val =
      L.objects m.val :=
    fun m hm => Function.update_of_ne (ne_of_mem_of_not_mem (List.mem_map_of_mem hm) hout) _ _
  have hold : ∀ {a : Arming} {i : Nat}, L.armings[i]? = some a → (L.armings ++ [⟨t, d⟩])[i]? = some a := by
    intro a i hi
    rw [List.getElem?_append_left (List.getElem?_eq_some_iff.mp hi).1]
    exact hi
  constructor
  case toDiscipline =>
    constructor
    case live => exact hplaced.live
    case sorted =>
      have hmem : ∀ m ∈ before ++ after, m ∈ L.nodes := fun m hm => mem_nodes_of_active (hsplit ▸ hm)
      have hself : Function.update L.objects t (some ⟨d, T.mPending, L.armings.length⟩) t =
          some ⟨d, T.mPending, L.armings.length⟩ := Function.update_self ..
      refine pairwise_insert (pairwise_related (fun m hm => hsame m (hmem m hm)) (hsplit ▸ h.sorted)) ?_ ?_
      · intro m hm A B hA hB
        have hm' := hmem m (List.mem_append_left _ hm)
        dsimp only at hA hB
        rw [hsame m hm'] at hA
        obtain rfl := Option.some.inj (hself.symm.trans hB)
        -- the arming number is the largest so far
        have hactive : A.isActive := (h.listed _ A hA).mpr (List.mem_map_of_mem hm')
        refine (Int.lt_or_eq_of_le (hbefore m hm A hA)).imp_right fun heq => ⟨heq, ?_⟩
        exact (List.getElem?_eq_some_iff.mp (h.armed _ A hA hactive).1).1
      · intro m hm A B hA hB
        dsimp only at hA hB
        rw [hsame m (hmem m (List.mem_append_right _ hm))] at hB
        obtain rfl := Option.some.inj (hself.symm.trans hA)
        exact .inl (hafter m hm B hB)
    case oneList => exact hplaced.oneList
    case position => exact hplaced.position
    case listed => exact hplaced.listed
    case settled => exact h.settled
    case once => exact h.once
    case onTime => exact fun f hf => ⟨hold (h.onTime f hf).1, (h.onTime f hf).2⟩
    case inOrder => exact h.inOrder
  case distinct => exact hplaced.distinct
  case fresh => exact hplaced.fresh
  case notPending =>
    intro m hm S hS
    rcases update_eq_some.mp hS with ⟨-, rfl⟩ | ⟨hs, hS⟩
    · exact hflag
    · rcases List.mem_cons.mp (List.perm_middle.subset hm) with rfl | hm
      · exact absurd rfl hs
      · exact h.notPending m (hsplit ▸ hm) S hS
  case expired =>
    intro m hm S hS
    exact h.expired m hm S (hsame m (mem_nodes_of_pending hm) ▸ hS)
  case pendingActive =>
    intro s S hS hpend
    rcases update_eq_some.mp hS with ⟨-, rfl⟩ | ⟨-, hS⟩
    · simp [hflag] at hpend
    · exact h.pendingActive s S hS hpend
  case pendingSorted => exact pairwise_related (fun m hm => hsame m (mem_nodes_of_pending hm)) h.pendingSorted
  case armed =>
    intro s S hS hact
    rcases update_eq_some.mp hS with ⟨rfl, rfl⟩ | ⟨-, hS⟩
    · refine ⟨by simp, fun f hf => Nat.ne_of_lt ?_⟩
      exact (List.getElem?_eq_some_iff.mp (h.onTime f hf).1).1
    · exact ⟨hold (h.armed s S hS hact).1, (h.armed s S hS hact).2⟩
  case current => exact h.current
  case next =>
    intro f hf hit m hm S hS
    exact h.next f hf hit m hm S (hsame m (mem_nodes_of_pending hm) ▸ hS)

/-- What happens to timers that are in no list, as long as they do not become active. -/
theorem Inv.offList {objects : TimerId → Option Timer} {mTimers : TimerId → Option Position}
    (hsame : ∀ m ∈ L.nodes, objects m.val = L.objects m.val)
    (hposition : ∀ m ∈ L.nodes, mTimers m.val = L.mTimers m.val)
    (hoff : ∀ s S, objects s = some S → s ∉ L.nodes.map Node.val → S.isActive = false ∧ S.mPending = false) :
    Inv { L with objects := objects, mTimers := mTimers } := by
  have hcases : ∀ s S, objects s = some S → L.objects s = some S ∧ s ∈ L.nodes.map Node.val ∨
      s ∉ L.nodes.map Node.val ∧ S.isActive = false ∧ S.mPending = false := by
    intro s S hS
    by_cases hs : s ∈ L.nodes.map Node.val
    · obtain ⟨m, hm, rfl⟩ := List.mem_map.mp hs
      exact .inl ⟨hsame m hm ▸ hS, hs⟩
    · exact .inr ⟨hs, hoff s S hS hs⟩
  exact {
    live := by
      intro m hm
      dsimp only
      rw [hsame m hm]
      exact h.live m hm
    sorted := pairwise_related (fun m hm => hsame m (mem_nodes_of_active hm)) h.sorted
    oneList := h.oneList
    position := fun m hm => (hposition m hm).trans (h.position m hm)
    listed := by
      intro s S hS
      rcases hcases s S hS with ⟨hold, -⟩ | ⟨hs, hact, -⟩
      · exact h.listed s S hold
      · rw [hact]
        exact iff_of_false (by simp) hs
    settled := h.settled
    once := h.once
    onTime := h.onTime
    inOrder := h.inOrder
    distinct := h.distinct
    fresh := h.fresh
    notPending := fun m hm S hS => h.notPending m hm S (hsame m (mem_nodes_of_active hm) ▸ hS)
    expired := fun m hm S hS => h.expired m hm S (hsame m (mem_nodes_of_pending hm) ▸ hS)
    pendingActive := by
      intro s S hS hpend
      rcases hcases s S hS with ⟨hold, -⟩ | ⟨-, -, hflag⟩
      · exact h.pendingActive s S hold hpend
      · simp [hflag] at hpend
    pendingSorted := pairwise_related (fun m hm => hsame m (mem_nodes_of_pending hm)) h.pendingSorted
    armed := by
      intro s S hS hact
      rcases hcases s S hS with ⟨hold, -⟩ | ⟨-, hinact, -⟩
      · exact h.armed s S hold hact
      · simp [hinact] at hact
    current := h.current
    next := fun f hf hit m hm S hS => h.next f hf hit m hm S (hsame m (mem_nodes_of_pending hm) ▸ hS) }

/-- A timer that is deleted from no list. -/
theorem Inv.remove (hout : t ∉ L.nodes.map Node.val) :
    Inv { L with
      objects := Function.update L.objects t none
      mTimers := Function.update L.mTimers t none } := by
  have hne : ∀ m ∈ L.nodes, m.val ≠ t := fun m hm heq => hout (heq ▸ List.mem_map_of_mem hm)
  refine h.offList (fun m hm => Function.update_of_ne (hne m hm) ..)
    (fun m hm => Function.update_of_ne (hne m hm) ..) fun s S hS hs => ?_
  by_cases hst : s = t
  · simp [hst] at hS
  · rw [Function.update_of_ne hst] at hS
    exact h.off_of_not_mem hS hs

/-- A new timer, in no list. -/
theorem Inv.add (hfresh : L.objects t = none) (position : Option Position) :
    Inv { L with
      objects := Function.update L.objects t (some ⟨kDurationInfinite, false, 0⟩)
      mTimers := Function.update L.mTimers t position } := by
  have hne : ∀ m ∈ L.nodes, m.val ≠ t := by
    rintro m hm rfl
    obtain ⟨S, hS⟩ := h.live m hm
    simp [hfresh] at hS
  refine h.offList (fun m hm => Function.update_of_ne (hne m hm) ..)
    (fun m hm => Function.update_of_ne (hne m hm) ..) fun s S hS hs => ?_
  rcases update_eq_some.mp hS with ⟨-, rfl⟩ | ⟨-, hS⟩
  · simp
  · exact h.off_of_not_mem hS hs

/-- A timer that has just left the pending list is fired. -/
theorem Inv.log {d : Int} {a : Nat} (harming : L.armings[a]? = some ⟨t, d⟩) (hdue : d ≤ L.nowMs)
    (hinactive : ∀ T, L.objects t = some T → T.isActive = false)
    (hunfired : ∀ f ∈ L.fired, f.arming ≠ a)
    (hlast : ∀ f ∈ L.fired, f.iteration = L.iteration → f.deadline ≤ d)
    (hfirst : ∀ n ∈ L.mPendingTimers, ∀ T, L.objects n.val = some T → d ≤ T.mDeadline) :
    Inv { L with fired := L.fired ++ [⟨t, d, a, L.iteration, L.nowMs⟩] } where
  toDiscipline := {
    live := h.live
    sorted := h.sorted
    oneList := h.oneList
    position := h.position
    listed := h.listed
    settled := h.settled
    once := by
      rw [List.map_append, List.nodup_append']
      refine ⟨h.once, List.nodup_singleton _, ?_⟩
      simp only [List.map_cons, List.map_nil, List.disjoint_singleton, List.mem_map, not_exists, not_and]
      exact hunfired
    onTime := by
      intro f hf
      rcases List.mem_append.mp hf with hf | hf
      · exact h.onTime f hf
      · obtain rfl := List.mem_singleton.mp hf
        exact ⟨harming, hdue⟩
    inOrder := by
      refine List.pairwise_append.mpr ⟨h.inOrder, List.pairwise_singleton .., fun f hf g hg heq => ?_⟩
      obtain rfl := List.mem_singleton.mp hg
      exact hlast f hf heq }
  distinct := h.distinct
  fresh := h.fresh
  notPending := h.notPending
  expired := h.expired
  pendingActive := h.pendingActive
  pendingSorted := h.pendingSorted
  armed := by
    intro s S hS hact
    refine ⟨(h.armed s S hS hact).1, fun f hf => ?_⟩
    rcases List.mem_append.mp hf with hf | hf
    · exact (h.armed s S hS hact).2 f hf
    · obtain rfl := List.mem_singleton.mp hf
      rintro rfl
      -- the arming is of one timer, and that one is not active any more
      have hs : t = s := by
        have := harming.symm.trans (h.armed s S hS hact).1
        simp only [Option.some.injEq, Arming.mk.injEq] at this
        exact this.1
      subst hs
      simp [hinactive S hS] at hact
  current := by
    intro f hf
    rcases List.mem_append.mp hf with hf | hf
    · exact h.current f hf
    · obtain rfl := List.mem_singleton.mp hf
      exact Nat.le_refl _
  next := by
    intro f hf hit n hn T hT
    rcases List.mem_append.mp hf with hf | hf
    · exact h.next f hf hit n hn T hT
    · obtain rfl := List.mem_singleton.mp hf
      exact hfirst n hn T hT

/-- The clock goes on. -/
theorem Inv.tick {now : Int} (hnow : L.nowMs ≤ now) : Inv { L with nowMs := now } :=
  { h with
    expired := fun m hm S hS => ⟨(h.expired m hm S hS).1, Int.le_trans (h.expired m hm S hS).2 hnow⟩ }

/-- The looper goes on, with nothing left to fire. -/
theorem Inv.enter (hnil : L.mPendingTimers = []) (phase : Phase) (now : Int) :
    Inv { L with phase := phase, nowMs := now } :=
  { h with
    settled := .inr hnil
    expired := by simp [hnil] }

end Inv

/-! ### The expired timers -/

/-- While the expired timers are queued: what is queued is not later than what is still active, and
nothing has been fired yet. -/
structure Queueing (L : DefaultLooper) : Prop extends Inv L where
  firing : L.phase = .firing
  notYet : ∀ f ∈ L.fired, f.iteration < L.iteration
  later : ∀ m ∈ L.mPendingTimers, ∀ n ∈ L.mActiveTimers, L.Related NotAfter m n

/-- The first active timer has expired: from the front of one list to the end of the other. -/
theorem Queueing.move (h : Queueing L) {rest : List (Node TimerId)} (hactive : L.mActiveTimers = n :: rest)
    (hT : L.objects n.val = some T) (hdue : T.mDeadline ≤ L.nowMs) :
    Queueing { L with
      objects := Function.update L.objects n.val (some { T with mPending := true })
      mTimers := Function.update L.mTimers n.val (some (.node L.nextNode))
      mActiveTimers := rest
      mPendingTimers := L.mPendingTimers ++ [⟨L.nextNode, n.val⟩]
      nextNode := L.nextNode + 1 } := by
  have hmem_n : n ∈ L.nodes := mem_nodes_of_active (hactive ▸ List.mem_cons_self)
  have hnodes : L.nodes = n :: (rest ++ L.mPendingTimers) := by rw [nodes, hactive, List.cons_append]
  have hout : n.val ∉ (rest ++ L.mPendingTimers).map Node.val := by
    have honce := h.oneList
    rw [hnodes, List.map_cons] at honce
    exact (List.nodup_cons.mp honce).1
  have hsame : ∀ m ∈ rest ++ L.mPendingTimers,
      Function.update L.objects n.val (some { T with mPending := true }) m.val = L.objects m.val :=
    fun m hm => Function.update_of_ne (ne_of_mem_of_not_mem (List.mem_map_of_mem hm) hout) _ _
  have hmem : ∀ m, m ∈ rest ++ L.mPendingTimers ↔ m ∈ L.nodes ∧ m ≠ n := by
    intro m
    rw [hnodes, List.mem_cons]
    constructor
    · exact fun hm => ⟨.inr hm, fun heq => hout (heq ▸ List.mem_map_of_mem hm)⟩
    · exact fun hm => hm.1.resolve_left hm.2
  have hmem_r : ∀ m ∈ rest, m ∈ rest ++ L.mPendingTimers := fun m hm => List.mem_append_left _ hm
  have hmem_p : ∀ m ∈ L.mPendingTimers, m ∈ rest ++ L.mPendingTimers := fun m hm => List.mem_append_right _ hm
  have hTactive : T.isActive := (h.listed _ T hT).mpr (List.mem_map_of_mem hmem_n)
  have hperm : List.Perm (rest ++ (L.mPendingTimers ++ [⟨L.nextNode, n.val⟩]))
      (⟨L.nextNode, n.val⟩ :: (rest ++ L.mPendingTimers)) := by
    rw [← List.append_assoc]
    exact List.perm_append_singleton ..
  -- between the two lists it is as if it was not active
  have hplaced := (h.placed.erase (T := { T with mDeadline := kDurationInfinite }) hmem_n
    (hnodes ▸ List.sublist_cons_self ..) hmem rfl).insert (T := { T with mPending := true }) hout hperm hTactive
  rw [Function.update_idem] at hplaced
  have hsorted := h.sorted
  rw [hactive, List.pairwise_cons] at hsorted
  exact {
    live := hplaced.live
    sorted := pairwise_related (fun m hm => hsame m (hmem_r m hm)) hsorted.2
    oneList := hplaced.oneList
    position := hplaced.position
    listed := hplaced.listed
    settled := .inl h.firing
    once := h.once
    onTime := h.onTime
    inOrder := h.inOrder
    distinct := hplaced.distinct
    fresh := hplaced.fresh
    notPending := fun m hm S hS =>
      h.notPending m (hactive ▸ List.mem_cons_of_mem n hm) S (hsame m (hmem_r m hm) ▸ hS)
    expired := by
      intro m hm S hS
      rcases List.mem_append.mp hm with hm | hm
      · exact h.expired m hm S (hsame m (hmem_p m hm) ▸ hS)
      · obtain rfl := List.mem_singleton.mp hm
        dsimp only at hS
        rw [Function.update_self] at hS
        obtain rfl := Option.some.inj hS
        exact ⟨rfl, hdue⟩
    pendingActive := by
      intro s S hS hpend
      rcases update_eq_some.mp hS with ⟨-, rfl⟩ | ⟨-, hS⟩
      · exact hTactive
      · exact h.pendingActive s S hS hpend
    pendingSorted := by
      refine List.pairwise_append.mpr ⟨pairwise_related (fun m hm => hsame m (hmem_p m hm)) h.pendingSorted,
        List.pairwise_singleton .., fun m hm k hk A B hA hB => ?_⟩
      obtain rfl := List.mem_singleton.mp hk
      dsimp only at hA hB
      rw [hsame m (hmem_p m hm)] at hA
      rw [Function.update_self] at hB
      obtain rfl := Option.some.inj hB
      exact h.later m hm n (hactive ▸ List.mem_cons_self) A T hA hT
    armed := by
      intro s S hS hact
      rcases update_eq_some.mp hS with ⟨rfl, rfl⟩ | ⟨-, hS⟩
      · exact h.armed _ T hT hTactive
      · exact h.armed s S hS hact
    current := h.current
    next := fun f hf hit => absurd hit (Nat.ne_of_lt (h.notYet f hf))
    firing := h.firing
    notYet := h.notYet
    later := by
      intro m hm k hk A B hA hB
      dsimp only at hA hB
      rw [hsame k (hmem_r k hk)] at hB
      rcases List.mem_append.mp hm with hm | hm
      · rw [hsame m (hmem_p m hm)] at hA
        exact h.later m hm k (hactive ▸ List.mem_cons_of_mem n hk) A B hA hB
      · obtain rfl := List.mem_singleton.mp hm
        rw [Function.update_self] at hA
        obtain rfl := Option.some.inj hA
        rcases hsorted.1 k hk T B hT hB with hlt | ⟨heq, -⟩
        · exact Int.le_of_lt hlt
        · exact Int.le_of_eq heq }

/-- The loop that queues the expired timers. -/
theorem queueExpired_inv (active : List (Node TimerId)) (hactive : L.mActiveTimers = active)
    (h : Queueing L) : ∃ L', queueExpired L.nowMs active L = .ok L' ∧ Inv L' := by
  induction active generalizing L with
  | nil => exact ⟨L, rfl, h.toInv⟩
  | cons n rest ih =>
    obtain ⟨T, hT⟩ := h.live n (mem_nodes_of_active (hactive ▸ List.mem_cons_self))
    rw [queueExpired, deref_eq_ok.mpr hT, ok_bind]
    split
    · next hdue =>
      rw [setPending, deref_eq_ok.mpr hT, ok_bind, ok_bind]
      exact ih rfl (h.move hactive hT hdue)
    · exact ⟨L, rfl, h.toInv⟩

theorem queuePending_inv (h : Inv L) (hnil : L.mPendingTimers = []) :
    ∃ L', L.queuePending = .ok L' ∧ Inv L' := by
  rw [queuePending, if_pos hnil]
  refine queueExpired_inv (L := { L with phase := .firing, iteration := L.iteration + 1 })
    L.mActiveTimers rfl ?_
  exact { h with
    settled := .inl rfl
    current := fun f hf => Nat.le_succ_of_le (h.current f hf)
    next := fun f hf hit => absurd (h.current f hf) (hit ▸ Nat.not_succ_le_self _)
    firing := rfl
    notYet := fun f hf => Nat.lt_succ_of_le (h.current f hf)
    later := by simp [hnil] }

end DefaultLooper

end Goldfish.Async
