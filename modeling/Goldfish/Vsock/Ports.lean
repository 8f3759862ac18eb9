import Goldfish.Vsock.Faults

/-!
# Goldfish.Vsock.Ports

**Dynamic ports and streams agree.** The ids of the dynamic host ports in use are
exactly the ids the allocator has handed out and not taken back (`PortsAgree`), in
every state of a run whose callbacks do not re-enter the device. So neither
`assert(inserted)` in `connect` nor `assert(id < mLastId)` in
`UniqueIdAllocator::put` ever fails, and no such run stops for another reason
either (`run_portsAgree`).

First the allocator on its own (`get_spec`, `put_spec`), then one obligation for each
way a step touches the streams (`Effect.portInv`).
-/

namespace Goldfish.Vsock

open Goldfish.Lib

variable {σ P : Type} {api : GoldfishVirtIOVSockDevAPI σ} {mode : Mode}

/-! ### The allocator -/

namespace UniqueIdAllocator

/-- Returned ids lie strictly below the last one: `put` coalesces the others away. -/
structure Ok (a : UniqueIdAllocator) : Prop where
  returned : ∀ id ∈ a.mReturnedIds, 0 < id ∧ id < a.mLastId
  last_lt : a.mLastId.toNat < 2 ^ 31

theorem ok_default : ({} : UniqueIdAllocator).Ok where
  returned id hid := absurd hid (StdSet.not_mem_empty id)
  last_lt := by decide

/-- The loop of `put` keeps the set of outstanding ids and leaves nothing to coalesce. -/
theorem coalesce_spec : ∀ (l : List UInt32) (last : UInt32), l.Pairwise (· > ·) →
    (∀ i ∈ l, 0 < i ∧ i ≤ last) →
    (coalesce last l).1 ≤ last ∧
      (∀ i ∈ (coalesce last l).2, 0 < i ∧ i < (coalesce last l).1) ∧
      ∀ x, (0 < x ∧ x ≤ (coalesce last l).1 ∧ x ∉ (coalesce last l).2) ↔
        (0 < x ∧ x ≤ last ∧ x ∉ l)
  | [], last, _, _ => by simp [coalesce]
  | i :: rest, last, hsorted, hle => by
      obtain ⟨hbelow, hsorted⟩ := List.pairwise_cons.mp hsorted
      have hi := hle i List.mem_cons_self
      unfold coalesce
      by_cases hlast : i = last
      · subst hlast
        rw [if_pos rfl]
        have hpred : (i - 1).toNat = i.toNat - 1 := by
          rw [UInt32.toNat_sub_of_le]
          · rfl
          · exact UInt32.le_iff_toNat_le.mpr (UInt32.lt_iff_toNat_lt.mp hi.1)
        have hpos := UInt32.lt_iff_toNat_lt.mp hi.1
        have hrest : ∀ j ∈ rest, 0 < j ∧ j ≤ i - 1 := by
          intro j hj
          refine ⟨(hle j (List.mem_cons_of_mem _ hj)).1, ?_⟩
          have := UInt32.lt_iff_toNat_lt.mp (hbelow j hj)
          rw [UInt32.le_iff_toNat_le, hpred]
          omega
        obtain ⟨hlow, hbound, hmem⟩ := coalesce_spec rest (i - 1) hsorted hrest
        refine ⟨?_, hbound, fun x => (hmem x).trans ?_⟩
        · rw [UInt32.le_iff_toNat_le] at hlow ⊢
          omega
        · rw [List.mem_cons, UInt32.le_iff_toNat_le, UInt32.le_iff_toNat_le, hpred,
            ← UInt32.toNat_inj]
          constructor
          · intro hgiven
            obtain ⟨h0, hx, hout⟩ := hgiven
            refine ⟨h0, by omega, ?_⟩
            intro hgiven
            rcases hgiven with h | h
            · omega
            · exact hout h
          · intro hgiven
            obtain ⟨h0, hx, hout⟩ := hgiven
            have hne : x.toNat ≠ i.toNat := fun h => hout (Or.inl h)
            exact ⟨h0, by omega, fun h => hout (Or.inr h)⟩
      · rw [if_neg hlast]
        have hlt : i < last := UInt32.lt_of_le_of_ne hi.2 hlast
        refine ⟨UInt32.le_refl _, fun j hj => ?_, fun _ => Iff.rfl⟩
        rcases List.mem_cons.mp hj with rfl | hj
        · exact ⟨hi.1, hlt⟩
        · exact ⟨(hle j (List.mem_cons_of_mem _ hj)).1, UInt32.lt_trans (hbelow j hj) hlt⟩

/-- `get` hands out an id that was not outstanding. -/
theorem get_spec {a : UniqueIdAllocator} (ha : a.Ok)
    (hroom : a.mReturnedIds.elems = [] → a.mLastId.toNat < 2 ^ 31 - 1) :
    a.get.2.Ok ∧ ¬ a.Outstanding a.get.1 ∧ 0 < a.get.1.toNat ∧ a.get.1.toNat < 2 ^ 31 ∧
      ∀ x, a.get.2.Outstanding x ↔ x = a.get.1 ∨ a.Outstanding x := by
  cases hlast : a.mReturnedIds.elems.getLast? with
  | some id =>
      have hmem : id ∈ a.mReturnedIds := List.mem_of_getLast? hlast
      obtain ⟨hpos, hlt⟩ := ha.returned id hmem
      have hget : a.get = (id, { a with mReturnedIds := a.mReturnedIds.erase id }) := by
        simp only [get, hlast]
      have hlt' := UInt32.lt_iff_toNat_lt.mp hlt
      rw [hget]
      refine ⟨⟨fun j hj => ha.returned j (StdSet.mem_erase.mp hj).1, ha.last_lt⟩,
        fun hout => hout.2.2 hmem, UInt32.lt_iff_toNat_lt.mp hpos, hlt'.trans ha.last_lt, ?_⟩
      intro x
      simp only [Outstanding, StdSet.mem_erase, id_eq]
      constructor
      · intro hgiven
        obtain ⟨h0, hle, hout⟩ := hgiven
        by_cases hx : x = id
        · exact Or.inl hx
        · exact Or.inr ⟨h0, hle, fun hin => hout ⟨hin, hx⟩⟩
      · intro hgiven
        rcases hgiven with rfl | ⟨h0, hle, hout⟩
        · exact ⟨hpos, UInt32.le_of_lt hlt, fun h => h.2 rfl⟩
        · exact ⟨h0, hle, fun h => hout h.1⟩
  | none =>
      have hnil : a.mReturnedIds.elems = [] := List.getLast?_eq_none_iff.mp hlast
      have hempty : ∀ x, x ∉ a.mReturnedIds := by
        intro x hx
        rw [StdSet.mem_def, hnil] at hx
        exact List.not_mem_nil hx
      have hget : a.get = (a.mLastId + 1, { a with mLastId := a.mLastId + 1 }) := by
        simp only [get, hlast]
      have hroom := hroom hnil
      have hsucc : (a.mLastId + 1).toNat = a.mLastId.toNat + 1 := by
        rw [UInt32.toNat_add, UInt32.toNat_one]
        omega
      rw [hget]
      refine ⟨⟨fun j hj => absurd hj (hempty j), ?_⟩, fun hout => ?_, ?_, ?_, fun x => ?_⟩
      · show (a.mLastId + 1).toNat < _
        omega
      · have := UInt32.le_iff_toNat_le.mp hout.2.1
        change (a.mLastId + 1).toNat ≤ _ at this
        omega
      · show 0 < (a.mLastId + 1).toNat
        omega
      · show (a.mLastId + 1).toNat < _
        omega
      · simp only [Outstanding, UInt32.lt_iff_toNat_lt, UInt32.le_iff_toNat_le, ← UInt32.toNat_inj,
          hsucc, hempty x, not_false_eq_true, and_true, UInt32.toNat_zero]
        omega

/-- `put` takes an outstanding id back. -/
theorem put_spec {a : UniqueIdAllocator} (ha : a.Ok) {id : UInt32} (hid : a.Outstanding id) :
    ∃ a', a.put id = .ok a' ∧ a'.Ok ∧ ∀ x, a'.Outstanding x ↔ a.Outstanding x ∧ x ≠ id := by
  obtain ⟨hpos, hle, hout⟩ := hid
  unfold put
  by_cases hlast : id = a.mLastId
  · subst hlast
    rw [if_pos rfl]
    have hpos' := UInt32.lt_iff_toNat_lt.mp hpos
    have hpred : (a.mLastId - 1).toNat = a.mLastId.toNat - 1 := by
      rw [UInt32.toNat_sub_of_le]
      · rfl
      · exact UInt32.le_iff_toNat_le.mpr hpos'
    have hbelow : ∀ i ∈ a.mReturnedIds.elems, 0 < i ∧ i ≤ a.mLastId - 1 := by
      intro i hi
      obtain ⟨h0, hlt⟩ := ha.returned i hi
      refine ⟨h0, ?_⟩
      have := UInt32.lt_iff_toNat_lt.mp hlt
      rw [UInt32.le_iff_toNat_le, hpred]
      omega
    obtain ⟨hlow, hbound, hmem⟩ := coalesce_spec _ _ a.mReturnedIds.sorted hbelow
    refine ⟨_, rfl, ⟨hbound, ?_⟩, fun x => (hmem x).trans ?_⟩
    · have := UInt32.le_iff_toNat_le.mp hlow
      have := ha.last_lt
      show (coalesce (a.mLastId - 1) a.mReturnedIds.elems).1.toNat < _
      omega
    · rw [Outstanding, UInt32.le_iff_toNat_le, UInt32.le_iff_toNat_le, hpred, ← UInt32.toNat_inj.ne]
      constructor
      · intro hgiven
        obtain ⟨h0, hx, hnot⟩ := hgiven
        exact ⟨⟨h0, by omega, hnot⟩, by omega⟩
      · intro hgiven
        obtain ⟨⟨h0, hx, hnot⟩, hne⟩ := hgiven
        exact ⟨h0, by omega, hnot⟩
  · rw [if_neg hlast, if_pos (UInt32.lt_of_le_of_ne hle hlast)]
    have hmem : ∀ x, x ∈ a.mReturnedIds.insert id ↔ x = id ∨ x ∈ a.mReturnedIds :=
      fun x => StdSet.mem_insert fun c _ h => h
    refine ⟨_, rfl, ⟨fun j hj => ?_, ha.last_lt⟩, fun x => ?_⟩
    · rcases (hmem j).mp hj with rfl | hj
      · exact ⟨hpos, UInt32.lt_of_le_of_ne hle hlast⟩
      · exact ha.returned j hj
    · simp only [Outstanding, hmem]
      constructor
      · intro hgiven
        obtain ⟨h0, hx, hne⟩ := hgiven
        exact ⟨⟨h0, hx, fun h => hne (Or.inr h)⟩, fun h => hne (Or.inl h)⟩
      · intro hgiven
        obtain ⟨⟨h0, hx, hnot⟩, hne⟩ := hgiven
        exact ⟨h0, hx, fun h => h.elim hne hnot⟩

end UniqueIdAllocator

/-! ### The ports of the streams -/

/-- The ids of the dynamic host ports in use. -/
def World.dynamicIds (w : World σ P) : List UInt32 :=
  (w.mStreams.elems.filter (·.isDynamic)).map (·.dynamicId)

/-- The dynamic ids in use are pairwise distinct, and they are the outstanding ones. -/
structure World.PortsAgree (w : World σ P) : Prop where
  distinct : w.dynamicIds.Nodup
  outstanding : ∀ id, id ∈ w.dynamicIds ↔ w.mSrcPortAllocator.Outstanding id

theorem mem_dynamicIds {w : World σ P} {id : UInt32} :
    id ∈ w.dynamicIds ↔ ∃ s ∈ w.mStreams, s.isDynamic = true ∧ s.dynamicId = id := by
  simp only [World.dynamicIds, List.mem_map, List.mem_filter, StdSet.mem_def, and_assoc]

theorem nodup_dynamicIds {w : World σ P} : w.dynamicIds.Nodup ↔
    ∀ s ∈ w.mStreams, ∀ t ∈ w.mStreams, s.isDynamic = true → t.isDynamic = true →
      s.dynamicId = t.dynamicId → s = t := by
  unfold World.dynamicIds
  rw [List.nodup_map_iff_inj_on (w.mStreams.nodup.filter _)]
  simp only [List.mem_filter, and_imp, StdSet.mem_def]
  constructor
  · intro h s hs t ht hs' ht' heq
    exact h s hs hs' t ht ht' heq
  · intro h s hs hs' t ht ht' heq
    exact h s hs t ht hs' ht' heq

theorem length_dynamicIds (w : World σ P) : w.dynamicIds.length = w.dynamicCount := by
  rw [World.dynamicIds, List.length_map, World.dynamicCount, List.countP_eq_length_filter]

/-- With nothing returned, every id up to the last one is in use. -/
theorem World.PortsAgree.last_le {w : World σ P} (h : w.PortsAgree)
    (hnil : w.mSrcPortAllocator.mReturnedIds.elems = []) :
    w.mSrcPortAllocator.mLastId.toNat ≤ w.dynamicCount := by
  generalize hn : w.mSrcPortAllocator.mLastId.toNat = n
  have hlt : n < 2 ^ 32 := hn ▸ UInt32.toNat_lt _
  have hnat : ∀ i < n, (UInt32.ofNat (i + 1)).toNat = i + 1 := fun i hi =>
    UInt32.toNat_ofNat_of_lt' (by unfold UInt32.size; omega)
  have hnodup : ((List.range n).map fun i => UInt32.ofNat (i + 1)).Nodup := by
    refine (List.nodup_map_iff_inj_on List.nodup_range).mpr fun i hi j hj heq => ?_
    have := congrArg UInt32.toNat heq
    rw [hnat i (List.mem_range.mp hi), hnat j (List.mem_range.mp hj)] at this
    omega
  have hsub : ((List.range n).map fun i => UInt32.ofNat (i + 1)) ⊆ w.dynamicIds := by
    intro id hid
    obtain ⟨i, hi, rfl⟩ := List.mem_map.mp hid
    have hi := List.mem_range.mp hi
    refine (h.outstanding _).mpr ⟨?_, ?_, ?_⟩
    · rw [UInt32.lt_iff_toNat_lt, hnat i hi]
      exact Nat.succ_pos i
    · rw [UInt32.le_iff_toNat_le, hnat i hi, hn]
      exact hi
    · rw [StdSet.mem_def, hnil]
      exact List.not_mem_nil
  have := (hnodup.subperm hsub).length_le
  rwa [List.length_map, List.length_range, length_dynamicIds] at this

/-- A dynamic port carries its id. -/
theorem isDynamic_of_port {s : VsockStream P} {id : UInt32} (hid : id.toNat < 2 ^ 31)
    (hport : s.hostPort = id + kDynamicPortsStart) : s.isDynamic = true ∧ s.dynamicId = id := by
  unfold VsockStream.isDynamic VsockStream.dynamicId
  have hstart : kDynamicPortsStart.toNat = 2 ^ 31 := rfl
  constructor
  · rw [decide_eq_true_iff, UInt32.le_iff_toNat_le, hport, UInt32.toNat_add, hstart]
    omega
  · rw [hport, UInt32.add_sub_cancel]

/-- Where ports are at any moment inside an action. -/
structure PortInv (x : Ctl × World σ P) : Prop where
  agree : x.2.PortsAgree
  alloc : x.2.mSrcPortAllocator.Ok
  listeners : ∀ port ∈ x.2.mHostPortListeners, port < kDynamicPortsStart
  newborn : ∀ s ∈ x.2.mStreams, x.1.newborn = some s.ref → s.isDynamic = false

theorem isDynamic_of_key {s t : VsockStream P} (h : s.key = t.key) :
    s.isDynamic = t.isDynamic ∧ s.dynamicId = t.dynamicId := by
  have hport : s.hostPort = t.hostPort := congrArg VsockStreamKey.hostPort h
  simp only [VsockStream.isDynamic, VsockStream.dynamicId, hport, and_self]

/-- Replacing a stream by one with the same ports. -/
theorem portsAgree_of_updated {w w' : World σ P} {s s' : VsockStream P} (hw : w.Wf)
    (hs : s ∈ w.mStreams) (hupd : w.Updated w' s s') (hkept : s.Kept s')
    (halloc : w'.mSrcPortAllocator = w.mSrcPortAllocator) (h : w.PortsAgree) : w'.PortsAgree := by
  obtain ⟨hdyn, hid⟩ := isDynamic_of_key hkept.key
  have hdistinct := nodup_dynamicIds.mp h.distinct
  constructor
  · refine nodup_dynamicIds.mpr fun t ht u hu ht' hu' heq => ?_
    rcases (hupd t).mp ht with rfl | ⟨ht, htne⟩ <;> rcases (hupd u).mp hu with rfl | ⟨hu, hune⟩
    · rfl
    · exact absurd (congrArg VsockStream.ref (hdistinct s hs u hu (hdyn ▸ ht') hu' (hid ▸ heq))).symm
        hune
    · exact absurd (congrArg VsockStream.ref (hdistinct t ht s hs ht' (hdyn ▸ hu') (hid ▸ heq))) htne
    · exact hdistinct t ht u hu ht' hu' heq
  · intro id
    rw [halloc, ← h.outstanding, mem_dynamicIds, mem_dynamicIds]
    constructor
    · intro hgiven
      obtain ⟨t, ht, ht', rfl⟩ := hgiven
      rcases (hupd t).mp ht with rfl | ⟨ht, -⟩
      · exact ⟨s, hs, hdyn ▸ ht', hid.symm⟩
      · exact ⟨t, ht, ht', rfl⟩
    · intro hgiven
      obtain ⟨t, ht, ht', rfl⟩ := hgiven
      by_cases hts : t.ref = s.ref
      · obtain rfl := hw.ref_inj t ht s hs hts
        exact ⟨s', hupd.mem, hdyn.trans ht', hid⟩
      · exact ⟨t, (hupd t).mpr (Or.inr ⟨ht, hts⟩), ht', rfl⟩

/-- Adding or removing a stream whose port is not dynamic. -/
theorem portsAgree_of_mem_iff {w w' : World σ P}
    (hmem : ∀ t : VsockStream P, t.isDynamic = true → (t ∈ w'.mStreams ↔ t ∈ w.mStreams))
    (halloc : w'.mSrcPortAllocator = w.mSrcPortAllocator) (h : w.PortsAgree) : w'.PortsAgree := by
  constructor
  · refine nodup_dynamicIds.mpr fun t ht u hu ht' hu' heq => ?_
    exact nodup_dynamicIds.mp h.distinct t ((hmem t ht').mp ht) u ((hmem u hu').mp hu) ht' hu' heq
  · intro id
    rw [halloc, ← h.outstanding, mem_dynamicIds, mem_dynamicIds]
    exact ⟨fun ⟨t, ht, ht', hid⟩ => ⟨t, (hmem t ht').mp ht, ht', hid⟩,
      fun ⟨t, ht, ht', hid⟩ => ⟨t, (hmem t ht').mpr ht, ht', hid⟩⟩

/-- A stream on the port the allocator hands out. -/
theorem portsAgree_of_connected {w w' : World σ P} {s : VsockStream P}
    (hmem : ∀ t, t ∈ w'.mStreams ↔ t = s ∨ t ∈ w.mStreams)
    (hport : s.hostPort = w.mSrcPortAllocator.get.1 + kDynamicPortsStart)
    (halloc : w'.mSrcPortAllocator = w.mSrcPortAllocator.get.2)
    (hok : w.mSrcPortAllocator.Ok) (hroom : w.dynamicCount < 2 ^ 31 - 1) (h : w.PortsAgree) :
    w'.PortsAgree ∧ w'.mSrcPortAllocator.Ok := by
  obtain ⟨hok', hfresh, -, hlt, hout⟩ := UniqueIdAllocator.get_spec hok fun hnil =>
    (h.last_le hnil).trans_lt hroom
  obtain ⟨hdyn, hid⟩ := isDynamic_of_port hlt hport
  have hdistinct := nodup_dynamicIds.mp h.distinct
  have hnew : ∀ t ∈ w.mStreams, t.isDynamic = true → t.dynamicId ≠ s.dynamicId := by
    intro t ht ht' heq
    refine hfresh ((h.outstanding _).mp ?_)
    rw [← hid, ← heq]
    exact mem_dynamicIds.mpr ⟨t, ht, ht', rfl⟩
  refine ⟨⟨?_, fun id => ?_⟩, halloc ▸ hok'⟩
  · refine nodup_dynamicIds.mpr fun t ht u hu ht' hu' heq => ?_
    rcases (hmem t).mp ht with rfl | ht <;> rcases (hmem u).mp hu with rfl | hu
    · rfl
    · exact absurd heq.symm (hnew u hu hu')
    · exact absurd heq (hnew t ht ht')
    · exact hdistinct t ht u hu ht' hu' heq
  · rw [halloc, hout, ← h.outstanding, mem_dynamicIds, mem_dynamicIds]
    constructor
    · intro hgiven
      obtain ⟨t, ht, ht', rfl⟩ := hgiven
      rcases (hmem t).mp ht with rfl | ht
      · exact Or.inl hid
      · exact Or.inr ⟨t, ht, ht', rfl⟩
    · intro hgiven
      rcases hgiven with rfl | ⟨t, ht, ht', rfl⟩
      · exact ⟨s, (hmem s).mpr (Or.inl rfl), hdyn, hid⟩
      · exact ⟨t, (hmem t).mpr (Or.inr ht), ht', rfl⟩

/-- A dynamic stream is gone and its port is given back. -/
theorem portsAgree_of_erased {w w' : World σ P} {s : VsockStream P} (hs : s ∈ w.mStreams)
    (hw : w.Wf) (hmem : ∀ t, t ∈ w'.mStreams ↔ t ∈ w.mStreams ∧ t.ref ≠ s.ref)
    (hdyn : s.isDynamic = true)
    (hput : w.mSrcPortAllocator.put s.dynamicId = .ok w'.mSrcPortAllocator)
    (hok : w.mSrcPortAllocator.Ok) (h : w.PortsAgree) :
    w'.PortsAgree ∧ w'.mSrcPortAllocator.Ok := by
  have hdistinct := nodup_dynamicIds.mp h.distinct
  have hin : w.mSrcPortAllocator.Outstanding s.dynamicId :=
    (h.outstanding _).mp (mem_dynamicIds.mpr ⟨s, hs, hdyn, rfl⟩)
  obtain ⟨a, ha, hok', hout⟩ := UniqueIdAllocator.put_spec hok hin
  obtain rfl : a = w'.mSrcPortAllocator := by
    rw [ha] at hput
    exact Except.ok.inj hput
  refine ⟨⟨?_, fun id => ?_⟩, hok'⟩
  · refine nodup_dynamicIds.mpr fun t ht u hu ht' hu' heq => ?_
    exact hdistinct t ((hmem t).mp ht).1 u ((hmem u).mp hu).1 ht' hu' heq
  · rw [hout, ← h.outstanding, mem_dynamicIds, mem_dynamicIds]
    constructor
    · intro hgiven
      obtain ⟨t, ht, ht', rfl⟩ := hgiven
      obtain ⟨ht, hne⟩ := (hmem t).mp ht
      exact ⟨⟨t, ht, ht', rfl⟩, fun heq =>
        hne (congrArg VsockStream.ref (hdistinct t ht s hs ht' hdyn heq))⟩
    · intro hgiven
      obtain ⟨⟨t, ht, ht', rfl⟩, hne⟩ := hgiven
      refine ⟨t, (hmem t).mpr ⟨ht, fun href => hne ?_⟩, ht', rfl⟩
      rw [hw.ref_inj t ht s hs href]

/-- Every way in which a step touches the streams keeps the ports in agreement. -/
theorem Effect.portInv {x y : Ctl × World σ P} (h : Effect mode x y) (hw : x.2.Wf)
    (hquiet : mode.quiet = true) (hbound : mode.bounded = true) (hI : PortInv x)
    (hlisteners : ∀ port ∈ y.2.mHostPortListeners, port < kDynamicPortsStart) : PortInv y := by
  cases h with
  | same hc hstreams halloc =>
      refine ⟨portsAgree_of_mem_iff (fun t _ => by rw [hstreams]) halloc hI.agree,
        halloc ▸ hI.alloc, hlisteners, ?_⟩
      rw [hstreams, hc]
      exact hI.newborn
  | @updated s s' hc hs hupd hkept halloc =>
      refine ⟨portsAgree_of_updated hw hs hupd hkept halloc hI.agree, halloc ▸ hI.alloc, hlisteners,
        fun t ht hborn => ?_⟩
      rw [hc] at hborn
      rcases (hupd t).mp ht with rfl | ⟨ht, -⟩
      · rw [(isDynamic_of_key hkept.key).1]
        exact hI.newborn s hs (hkept.ref ▸ hborn)
      · exact hI.newborn t ht hborn
  | @requested s hc hc' hmem href _ hport halloc =>
      have hstatic : s.isDynamic = false := by
        have := UInt32.lt_iff_toNat_lt.mp (hI.listeners _ hport)
        simp only [VsockStream.isDynamic, decide_eq_false_iff_not, UInt32.le_iff_toNat_le]
        omega
      refine ⟨portsAgree_of_mem_iff (fun t ht' => ?_) halloc hI.agree, halloc ▸ hI.alloc, hlisteners,
        fun t ht hborn => ?_⟩
      · rw [hmem t]
        refine or_iff_right fun h => ?_
        rw [h, hstatic] at ht'
        cases ht'
      · rcases (hmem t).mp ht with rfl | ht
        · exact hstatic
        · rw [hc', href] at hborn
          exact absurd (Option.some.inj hborn) (hw.ref_lt t ht).ne'
  | @accepted s s' hc hc' hs hupd hkept hplug halloc =>
      exact ⟨portsAgree_of_updated hw hs hupd hkept halloc hI.agree, halloc ▸ hI.alloc, hlisteners,
        fun t ht hborn => by simp [hc'] at hborn⟩
  | @declined s hc hc' hs hmem halloc =>
      have hstatic := hI.newborn s hs hc
      refine ⟨portsAgree_of_mem_iff (fun t ht' => ?_) halloc hI.agree, halloc ▸ hI.alloc, hlisteners,
        fun t ht hborn => by simp [hc'] at hborn⟩
      rw [hmem t]
      refine and_iff_left_of_imp fun ht href => ?_
      rw [hw.ref_inj t ht s hs href, hstatic] at ht'
      cases ht'
  | @connected s hc hmem href _ hplug hport halloc hroom hidle =>
      obtain ⟨hagree, hok⟩ :=
        portsAgree_of_connected hmem hport halloc hI.alloc (hroom hbound) hI.agree
      refine ⟨hagree, hok, hlisteners, fun t ht hborn => ?_⟩
      rw [hc, hidle hquiet] at hborn
      cases hborn
  | @erased s hc hs hmem halloc =>
      have hrest : ∀ t ∈ y.2.mStreams, y.1.newborn = some t.ref → t.isDynamic = false := by
        rw [hc]
        exact fun t ht => hI.newborn t ((hmem t).mp ht).1
      rcases halloc with ⟨hdyn, hput⟩ | ⟨hstatic, halloc⟩
      · obtain ⟨hagree, hok⟩ := portsAgree_of_erased hs hw hmem hdyn hput hI.alloc hI.agree
        exact ⟨hagree, hok, hlisteners, hrest⟩
      · refine ⟨portsAgree_of_mem_iff (fun t ht' => ?_) halloc hI.agree, halloc ▸ hI.alloc,
          hlisteners, hrest⟩
        rw [hmem t]
        refine and_iff_left_of_imp fun ht href => ?_
        rw [hw.ref_inj t ht s hs href, hstatic] at ht'
        cases ht'

/-- Only `listen` touches the listeners. -/
theorem Atom.listeners_lt {x y : Ctl × World σ P} (h : Atom api mode x y)
    (hbound : mode.bounded = true)
    (hx : ∀ port ∈ x.2.mHostPortListeners, port < kDynamicPortsStart) :
    ∀ port ∈ y.2.mHostPortListeners, port < kDynamicPortsStart := by
  cases h with
  | host h _ _ =>
      cases h with
      | listened hlisten =>
          intro port hport
          rcases Finset.mem_insert.mp hport with rfl | hport
          · exact hlisten hbound
          · exact hx port hport
      | connected hemplace _ =>
          obtain ⟨streams, -, rfl⟩ := emplace_inv hemplace
          exact hx
      | unplugged _ _ hrecycle =>
          obtain ⟨alloc, rfl, -⟩ := recycleStreamQuietly_inv hrecycle
          exact hx
      | _ => exact hx
  | requested _ hemplace =>
      obtain ⟨streams, -, rfl⟩ := emplace_inv hemplace
      exact hx
  | accepted _ =>
      rw [World.afterAccept_fields.2.2.1]
      exact hx
  | recycled _ hrecycle =>
      obtain ⟨alloc, rfl, -⟩ := recycleStreamQuietly_inv hrecycle
      split <;> exact hx
  | _ => exact hx

/-- What holds of the device, inside of an action, in a run of the claim. -/
structure PortState (x : Ctl × World σ P) : Prop where
  sane : x.2.Sane
  plugged : Plugged x
  ports : PortInv x

theorem Atoms.portState {x y : Ctl × World σ P} (h : Atoms api mode x y)
    (hquiet : mode.quiet = true) (hbound : mode.bounded = true) (hx : PortState x) :
    PortState y :=
  star_invariant (I := PortState) (fun _ _ hab hI =>
    ⟨⟨hab.wf hI.sane.wf, (hab.effect hI.sane.wf).bufsOk hI.sane.bufsOk⟩,
      (hab.effect hI.sane.wf).plugged hI.plugged,
      (hab.effect hI.sane.wf).portInv hI.sane.wf hquiet hbound hI.ports
        (hab.listeners_lt hbound hI.ports.listeners)⟩) h hx

/-- In such a state none of the reasons to stop is there. -/
theorem PortState.not_stops {c : Ctl} {w : World σ P} (h : PortState (c, w))
    (hquiet : mode.quiet = true) (hlive : mode.live = true) (hbound : mode.bounded = true)
    {e : Fault} : ¬ Stops mode c w e := by
  have hports := h.ports
  intro hgiven
  rcases hgiven with ⟨hs, hport, hroom⟩ | ⟨hs, hdyn, hput⟩ | ⟨hs, hplug, hc⟩ | hdangling
  · -- the port the allocator hands out is not in use
    obtain ⟨-, hfresh, -, hlt, -⟩ := UniqueIdAllocator.get_spec hports.alloc fun hnil =>
      (hports.agree.last_le hnil).trans_lt (hroom hbound)
    obtain ⟨hdyn, hid⟩ := isDynamic_of_port hlt hport
    refine hfresh ((hports.agree.outstanding _).mp ?_)
    exact mem_dynamicIds.mpr ⟨_, hs, hdyn, hid⟩
  · have hin := (hports.agree.outstanding _).mp (mem_dynamicIds.mpr ⟨_, hs, hdyn, rfl⟩)
    obtain ⟨a, ha, -⟩ := UniqueIdAllocator.put_spec hports.alloc hin
    rw [ha] at hput
    cases hput
  · have := h.plugged _ hs (by simp [hc hquiet])
    simp [hplug] at this
  · simp [hdangling hquiet] at hlive

/-! ### Runs -/

/-- The actions of a run without re-entrant callbacks, dead sockets, resets, listeners on
dynamic ports, or more dynamic streams than there are ports. -/
structure PortLegal (w : World σ P) (a : Action σ P) : Prop where
  quiet : ∀ cb ∈ a.callbacks, cb.Quiet
  live : ∀ op, a = .host op → op.Live w
  listen : ∀ port, a = .host (.listen port) → port < kDynamicPortsStart
  room : w.dynamicCount < 2 ^ 31 - 1
  noStatus : ∀ status, a ≠ .setStatus status

/-- The disciplines `PortLegal` stands for. -/
def portMode : Mode := { quiet := true, live := true, bounded := true }

theorem PortLegal.allows {w : World σ P} {a : Action σ P} (h : PortLegal w a) :
    portMode.Allows w a where
  noSwitch := rfl
  quiet _ := h.quiet
  live _ := h.live
  keepsPlug hk := by simp [portMode] at hk
  onceConnected ho := by simp [portMode] at ho
  bounded _ := ⟨rfl, h.room, h.listen⟩

/-- A legal action neither stops the device nor upsets its ports. -/
theorem step_portState (hlaw : api.Lawful) {w : World σ P} {a : Action σ P}
    (hw : PortState (.idle, w)) (hlegal : PortLegal w a) :
    ∃ w', step api w a = .ok w' ∧ PortState (.idle, w') := by
  cases hstep : step api w a with
  | ok w' =>
      have hatoms := step_atoms hw.sane.wf hlegal.allows hlegal.noStatus hstep
      exact ⟨w', rfl, hatoms.portState rfl rfl hw⟩
  | error e =>
      obtain ⟨y, hatoms, hstops⟩ := step_error hlaw hw.sane hlegal.allows hlegal.noStatus hstep
      exact absurd hstops (PortState.not_stops (hatoms.portState rfl rfl hw) rfl rfl rfl)

theorem realized_portsAgree {listeners : Finset UInt32} {vq : σ} {nextRef : Ref}
    {log : List (Event σ P)} : (World.realized listeners vq nextRef log).PortsAgree where
  distinct := List.nodup_nil
  outstanding id := by
    refine ⟨fun hid => absurd hid List.not_mem_nil, fun hout => ?_⟩
    have h0 := UInt32.lt_iff_toNat_lt.mp hout.1
    have h1 := UInt32.le_iff_toNat_le.mp hout.2.1
    exact absurd (h0.trans_le h1) (Nat.lt_irrefl _)

theorem realized_portState {listeners : Finset UInt32} {vq : σ} {nextRef : Ref}
    {log : List (Event σ P)} (h : ∀ port ∈ listeners, port < kDynamicPortsStart) :
    PortState (.idle, World.realized listeners vq nextRef log) where
  sane := realized_sane
  plugged s hs := absurd hs (StdSet.not_mem_empty s)
  ports :=
    { agree := realized_portsAgree
      alloc := UniqueIdAllocator.ok_default
      listeners := h
      newborn := fun s hs => absurd hs (StdSet.not_mem_empty s) }

/-- A legal run of a device behind a lawful virtqueue side. -/
theorem run_portState (hlaw : api.Lawful) {w : World σ P} (hw : PortState (.idle, w))
    {acts : List (Action σ P)} (hlegal : Along (step api) PortLegal w acts) :
    ∃ w', run api w acts = .ok w' ∧ PortState (.idle, w') :=
  hlegal.progress (I := fun v => PortState (.idle, v)) (fun _ _ => step_portState hlaw) hw

/-- Every legal run of a freshly realized device returns, no assertion fails on the way,
and the dynamic ports in use are the outstanding ones. -/
theorem run_portsAgree {listeners : Finset UInt32} {vq : VirtIOVSock}
    {acts : List (Action VirtIOVSock P)}
    (hlisteners : ∀ port ∈ listeners, port < kDynamicPortsStart)
    (hlegal : Along (step devApi) PortLegal (World.realized listeners vq) acts) :
    ∃ w, run devApi (World.realized listeners vq) acts = .ok w ∧ w.PortsAgree := by
  obtain ⟨w, hrun, hw⟩ := run_portState devApi_lawful (realized_portState hlisteners) hlegal
  exact ⟨w, hrun, hw.ports.agree⟩

/-- `connect` is legal while there are ports. -/
theorem portLegal_connect {w : World σ P} {guestPort : UInt32} {plug : P}
    (hroom : w.dynamicCount < 2 ^ 31 - 1) : PortLegal w (.host (.connect guestPort plug)) where
  quiet cb hcb := by simp [Action.callbacks] at hcb
  live op hop ref href := by
    obtain rfl : HostOp.connect guestPort plug = op := by simpa using hop
    simp [HostOp.ref?] at href
  listen port hport := by simp at hport
  room := hroom
  noStatus status hstatus := by simp at hstatus

/-- So is every packet from the guest whose callbacks are quiet. -/
theorem portLegal_control {w : World σ P} {hdr : VirtioVsockHdr}
    (hroom : w.dynamicCount < 2 ^ 31 - 1) : PortLegal w (.control hdr {}) where
  quiet cb hcb := by
    obtain rfl : ({} : Callbacks P) = cb := by simpa [Action.callbacks] using hcb
    exact Callbacks.quiet_default
  live op hop := by simp at hop
  listen port hport := by simp at hport
  room := hroom
  noStatus status hstatus := by simp at hstatus

/-- The host connects, the guest refuses, and the host connects once more. -/
def connectTwice : List (Action VirtIOVSock Unit) :=
  [.host (.connect 1000 ()),
    .control (guestHeader 1000 2147483649 .rst 0 0 0) {},
    .host (.connect 1000 ())]

theorem run_portsAgree_connectTwice :
    ∃ w, run devApi (World.realized ∅ ⟨3, [64]⟩) connectTwice = .ok w ∧ w.PortsAgree := by
  refine run_portsAgree (by simp) ?_
  refine Along.cons (portLegal_connect (by decide)) rfl ?_
  refine Along.cons (portLegal_control (by decide)) rfl ?_
  exact Along.cons (portLegal_connect (by decide)) rfl trivial

end Goldfish.Vsock
