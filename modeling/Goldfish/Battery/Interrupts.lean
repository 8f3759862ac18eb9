import Goldfish.Battery.Device

/-!
# Goldfish.Battery.Interrupts

The interrupt of the battery over whole runs: the level of the line, and whether a
change the host signals reaches the guest.

Both properties have one step that breaks them. A write of `INT_ENABLE` raises the
line but never lowers it (`irq_level_iff`), and a read of `INT_STATUS` clears the
bits that are masked with those it returns (`notifications_kept_iff`). `step_cases`
says once what a step does to the line and to the two words; everything else is read
off it.
-/

namespace Goldfish.Battery

open Goldfish.Lib

/-! ### Status bits -/

/-- Where the bit of a change stands in the status word. -/
def statusIndex (ac : Int32) : Nat := if ac ≠ 0 then 1 else 0

theorem newStatus_eq (ac : Int32) : newStatus ac = ⟨BitVec.twoPow 32 (statusIndex ac)⟩ := by
  unfold newStatus statusIndex
  split <;> decide

theorem and_newStatus_ne_zero (x : UInt32) (ac : Int32) :
    x &&& newStatus ac ≠ 0 ↔ x.toBitVec.getLsbD (statusIndex ac) = true := by
  have hzero : BitVec.twoPow 32 (statusIndex ac) ≠ 0#32 := by
    unfold statusIndex
    split <;> decide
  rw [Ne, ← UInt32.toBitVec_inj, newStatus_eq, UInt32.toBitVec_and, BitVec.and_twoPow]
  cases x.toBitVec.getLsbD (statusIndex ac)
  · simp
  · simpa using hzero

theorem newStatus_pending (x : UInt32) (ac : Int32) : (x ||| newStatus ac) &&& newStatus ac ≠ 0 := by
  rw [and_newStatus_ne_zero, newStatus_eq, UInt32.toBitVec_or, BitVec.getLsbD_or]
  have hlt : statusIndex ac < 32 := by
    unfold statusIndex
    split <;> decide
  simp [hlt]

theorem pending_or {x : UInt32} {ac : Int32} (h : x &&& newStatus ac ≠ 0) (y : UInt32) :
    (x ||| y) &&& newStatus ac ≠ 0 := by
  rw [and_newStatus_ne_zero] at h ⊢
  rw [UInt32.toBitVec_or, BitVec.getLsbD_or, h, Bool.true_or]

/-- Another bit is not made pending by this one. -/
theorem pending_of_or {x : UInt32} {ac ac' : Int32} (hne : newStatus ac' ≠ newStatus ac)
    (h : (x ||| newStatus ac') &&& newStatus ac ≠ 0) : x &&& newStatus ac ≠ 0 := by
  have hindex : statusIndex ac' ≠ statusIndex ac := by
    intro heq
    rw [newStatus_eq, newStatus_eq, heq] at hne
    exact hne rfl
  rw [and_newStatus_ne_zero] at h ⊢
  rw [newStatus_eq, UInt32.toBitVec_or, BitVec.getLsbD_or, BitVec.getLsbD_twoPow] at h
  simpa [hindex] using h

theorem pending_and_iff {x y : UInt32} {ac : Int32} :
    x &&& y &&& newStatus ac ≠ 0 ↔ x &&& newStatus ac ≠ 0 ∧ y &&& newStatus ac ≠ 0 := by
  rw [and_newStatus_ne_zero, and_newStatus_ne_zero, and_newStatus_ne_zero, UInt32.toBitVec_and,
    BitVec.getLsbD_and, Bool.and_eq_true]

/-! ### What a step does to the interrupt -/

/-- The device signals changes: it is realized and has a battery. -/
def BatteryState.Signals (s : BatteryState) : Prop := s.sBatteryIsRealized = true ∧ s.hw_has_battery ≠ 0

/-- The line, and the words it depends on, stay as they are. -/
def SameInterrupt (s s' : BatteryState) : Prop :=
  s'.irq = s.irq ∧ s'.int_status = s.int_status ∧ s'.int_enable = s.int_enable

theorem store_same (s : BatteryState) (ac : Int32) (property : PowerSupplyProp) (value : Int32) :
    SameInterrupt s (s.store ac property value) := by
  unfold BatteryState.store
  split <;> cases property <;> exact ⟨rfl, rfl, rfl⟩

theorem realize_same (s : BatteryState) : SameInterrupt s s.realize := by
  unfold BatteryState.realize
  dsimp only
  split <;> exact ⟨rfl, rfl, rfl⟩

theorem set_prop_same {s : BatteryState} (h : ¬ s.Signals) (ac : Int32) (property : PowerSupplyProp)
    (value : Int32) : SameInterrupt s (s.set_prop ac property value) := by
  unfold BatteryState.set_prop
  split
  · split <;> exact ⟨rfl, rfl, rfl⟩
  · rename_i hrealized
    rw [if_pos (not_not.mp fun hbattery => h ⟨by simpa using hrealized, hbattery⟩)]
    exact ⟨rfl, rfl, rfl⟩

/-- A change that is signalled: the bit is pending, and the line has been set unless the bit alone was
pending before. -/
theorem set_prop_signals {s : BatteryState} (h : s.Signals) (ac : Int32) (property : PowerSupplyProp)
    (value : Int32) :
    (s.set_prop ac property value).int_status = s.int_status ||| newStatus ac ∧
      (s.set_prop ac property value).int_enable = s.int_enable ∧
      (s.set_prop ac property value).irq =
        if newStatus ac ≠ s.int_status then decide ((s.int_status ||| newStatus ac) &&& s.int_enable ≠ 0)
        else s.irq := by
  obtain ⟨hirq, hstatus, henable⟩ := store_same s ac property value
  unfold BatteryState.set_prop
  rw [if_neg (by simp [h.1]), if_neg h.2]
  dsimp only
  rw [hstatus]
  split
  · simp only [BatteryState.qemu_set_irq, henable, and_self]
  · rename_i hsame
    refine ⟨?_, henable, hirq⟩
    rw [hstatus, ← not_not.mp hsame, UInt32.or_self]

theorem read_status (s : BatteryState) :
    s.read BATTERY_INT_STATUS =
      if s.int_status &&& s.int_enable ≠ 0 then
        ((s.int_status &&& s.int_enable).toUInt64, { s with irq := false, int_status := 0 })
      else ((s.int_status &&& s.int_enable).toUInt64, s) := rfl

theorem read_other (s : BatteryState) {offset : UInt64} (h : offset ≠ BATTERY_INT_STATUS) :
    (s.read offset).2 = s := by
  unfold BatteryState.read
  split <;> try rfl
  rename_i hzero
  exact absurd (UInt64.toNat_inj.mp hzero) h

/-- **What a step does to the interrupt.** It leaves it alone, signals a change, acknowledges every
pending bit, or sets the enable mask. -/
theorem step_cases (s : BatteryState) (op : Op) :
    SameInterrupt s (s.step op) ∧
        (∀ ac property value, op = .setProp ac property value → ¬ s.Signals) ∧
        (op = .read BATTERY_INT_STATUS → s.int_status &&& s.int_enable = 0) ∧
        (∀ val, op ≠ .write BATTERY_INT_ENABLE val) ∨
      (∃ ac property value, op = .setProp ac property value ∧ s.Signals) ∨
      (op = .read BATTERY_INT_STATUS ∧ s.int_status &&& s.int_enable ≠ 0 ∧
        s.step op = { s with irq := false, int_status := 0 }) ∨
      (∃ val, op = .write BATTERY_INT_ENABLE val ∧
        s.step op = { s with
          int_enable := val.toUInt32
          irq := s.irq || decide (val.toUInt32 &&& s.int_status ≠ 0) }) := by
  cases op with
  | realize => exact .inl ⟨realize_same s, by simp, by simp, by simp⟩
  | setProp ac property value =>
    by_cases h : s.Signals
    · exact .inr (.inl ⟨ac, property, value, rfl, h⟩)
    · exact .inl ⟨set_prop_same h ac property value, fun _ _ _ _ => h, by simp, by simp⟩
  | read offset =>
    by_cases hoffset : offset = BATTERY_INT_STATUS
    · subst hoffset
      by_cases hactive : s.int_status &&& s.int_enable ≠ 0
      · exact .inr (.inr (.inl ⟨rfl, hactive, by rw [BatteryState.step, read_status, if_pos hactive]⟩))
      · refine .inl ⟨?_, by simp, fun _ => not_not.mp hactive, by simp⟩
        rw [BatteryState.step, read_status, if_neg hactive]
        exact ⟨rfl, rfl, rfl⟩
    · refine .inl ⟨?_, by simp, fun h => absurd (Op.read.inj h) hoffset, by simp⟩
      rw [BatteryState.step, read_other s hoffset]
      exact ⟨rfl, rfl, rfl⟩
  | write offset val =>
    by_cases hoffset : offset = BATTERY_INT_ENABLE
    · subst hoffset
      refine .inr (.inr (.inr ⟨val, rfl, ?_⟩))
      rw [BatteryState.step, BatteryState.write, if_pos rfl]
      dsimp only [BatteryState.qemu_set_irq]
      split <;> simp_all
    · refine .inl ⟨?_, by simp, by simp, fun v h => hoffset (Op.write.inj h).1⟩
      rw [BatteryState.step, BatteryState.write, if_neg hoffset]
      exact ⟨rfl, rfl, rfl⟩

/-! ### The level of the line -/

/-- The line is high exactly if an enabled bit is pending. -/
def BatteryState.LineExact (s : BatteryState) : Prop :=
  s.irq = decide (s.int_status &&& s.int_enable ≠ 0)

/-- No write of `INT_ENABLE` masks every bit that holds the line high. -/
def NeverMasksActive (ops : List Op) : Prop :=
  ∀ pre val post, ops = pre ++ .write BATTERY_INT_ENABLE val :: post →
    (run pre).int_status &&& (run pre).int_enable ≠ 0 → (run pre).int_status &&& val.toUInt32 ≠ 0

/-- One step from a state whose line is right. -/
theorem lineExact_step_iff {s : BatteryState} (h : s.LineExact) (op : Op) :
    (s.step op).LineExact ↔ ∀ val, op = .write BATTERY_INT_ENABLE val →
      s.int_status &&& s.int_enable ≠ 0 → s.int_status &&& val.toUInt32 ≠ 0 := by
  unfold BatteryState.LineExact at h ⊢
  rcases step_cases s op with ⟨⟨hirq, hstatus, henable⟩, -, -, hwrite⟩ |
    ⟨ac, property, value, rfl, hsignals⟩ | ⟨rfl, -, hs⟩ | ⟨val, rfl, hs⟩
  · rw [hirq, hstatus, henable]
    exact iff_of_true h fun val hop => absurd hop (hwrite val)
  · obtain ⟨hstatus, henable, hirq⟩ := set_prop_signals hsignals ac property value
    refine iff_of_true ?_ (by simp)
    rw [BatteryState.step, hirq, hstatus, henable]
    split
    · rfl
    · rename_i hsame
      rw [h, ← not_not.mp hsame, UInt32.or_self]
  · rw [hs]
    simp
  · rw [hs]
    simp only [h, Op.write.injEq, true_and, forall_eq', UInt32.and_comm val.toUInt32]
    by_cases hold : s.int_status &&& s.int_enable = 0 <;>
      by_cases hnew : s.int_status &&& val.toUInt32 = 0 <;> simp [hold, hnew]

/-- **The level of the line.** It is right throughout a run exactly if no write of `INT_ENABLE` in the run
masks every bit that is active: such a write leaves the line high with nothing to report. -/
theorem irq_level_iff (ops : List Op) :
    (∀ pre, pre <+: ops → (run pre).LineExact) ↔ NeverMasksActive ops := by
  have hstep : ∀ pre op, (run pre).LineExact → ((run (pre ++ [op])).LineExact ↔
      ∀ val, op = .write BATTERY_INT_ENABLE val → (run pre).int_status &&& (run pre).int_enable ≠ 0 →
        (run pre).int_status &&& val.toUInt32 ≠ 0) := by
    intro pre op h
    rw [run_concat]
    exact lineExact_step_iff h op
  rw [forall_initial_iff_hist (I := fun pre => (run pre).LineExact) rfl hstep]
  constructor
  · intro h pre val post hops
    exact h pre _ post hops val rfl
  · intro h pre op post hops val hop
    subst hop
    exact h pre val post hops

/-- The guest enables the battery's bit, is told of a change, and masks the bit before it reads the
status: the line stays high. -/
theorem masked_line_stays_high :
    ¬ (run [.setProp 0 .HAS_BATTERY 1, .realize, .write BATTERY_INT_ENABLE 1, .setProp 0 .CAPACITY 50,
        .write BATTERY_INT_ENABLE 0]).LineExact := by
  unfold BatteryState.LineExact
  decide

/-! ### Changes that wait for the guest -/

/-- A change with this bit was signalled and no later read of `INT_STATUS` met the bit enabled: the guest
is still to be told. -/
def Owed (ops : List Op) (bit : UInt32) : Prop :=
  ∃ pre ac property value mid, ops = pre ++ .setProp ac property value :: mid ∧ newStatus ac = bit ∧
    (run pre).Signals ∧
    ∀ mid₁ mid₂, mid = mid₁ ++ .read BATTERY_INT_STATUS :: mid₂ →
      (run (pre ++ .setProp ac property value :: mid₁)).int_enable &&& bit = 0

/-- How one more step changes what is owed. -/
theorem owed_concat_iff {ops : List Op} {op : Op} {bit : UInt32} :
    Owed (ops ++ [op]) bit ↔
      Owed ops bit ∧ (op = .read BATTERY_INT_STATUS → (run ops).int_enable &&& bit = 0) ∨
        ∃ ac property value, op = .setProp ac property value ∧ newStatus ac = bit ∧ (run ops).Signals := by
  constructor
  · intro ⟨pre, ac, property, value, mid, hops, hbit, hsignals, hmid⟩
    rcases List.eq_nil_or_concat mid with rfl | ⟨mid', last, rfl⟩
    · -- the step is the change itself
      obtain ⟨rfl, hop⟩ := List.append_inj' hops rfl
      exact .inr ⟨ac, property, value, (List.cons.inj hop).1, hbit, hsignals⟩
    · have hsplit : ops ++ [op] = (pre ++ .setProp ac property value :: mid') ++ [last] := by simpa using hops
      obtain ⟨rfl, hop⟩ := List.append_inj' hsplit rfl
      obtain ⟨rfl, -⟩ := List.cons.inj hop
      refine .inl ⟨⟨pre, ac, property, value, mid', rfl, hbit, hsignals, ?_⟩, ?_⟩
      · intro mid₁ mid₂ hmid'
        exact hmid mid₁ (mid₂ ++ [op]) (by simp [hmid'])
      · intro hop
        exact hmid mid' [] (by simp [hop])
  · intro h
    rcases h with ⟨⟨pre, ac, property, value, mid, rfl, hbit, hsignals, hmid⟩, hread⟩ |
      ⟨ac, property, value, rfl, hbit, hsignals⟩
    · refine ⟨pre, ac, property, value, mid ++ [op], by simp, hbit, hsignals, ?_⟩
      intro mid₁ mid₂ heq
      rcases List.eq_nil_or_concat mid₂ with rfl | ⟨mid', last, rfl⟩
      · obtain ⟨rfl, hop⟩ := List.append_inj' heq rfl
        exact hread (List.cons.inj hop).1
      · have hsplit : mid ++ [op] = (mid₁ ++ .read BATTERY_INT_STATUS :: mid') ++ [last] := by
          simpa using heq
        exact hmid mid₁ mid' (List.append_inj' hsplit rfl).1
    · exact ⟨ops, ac, property, value, [], rfl, hbit, hsignals, by simp⟩

theorem not_owed_nil (bit : UInt32) : ¬ Owed [] bit := by
  intro ⟨_, _, _, _, _, h, _⟩
  simp at h

/-- Every bit that is pending was signalled and is still owed. -/
theorem owed_of_pending (ops : List Op) (ac : Int32) :
    (run ops).int_status &&& newStatus ac ≠ 0 → Owed ops (newStatus ac) := by
  induction ops using List.reverseRecOn with
  | nil => exact fun h => absurd UInt32.zero_and h
  | append_singleton ops op ih =>
    intro h
    rw [run_concat] at h
    rw [owed_concat_iff]
    rcases step_cases (run ops) op with ⟨⟨-, hstatus, -⟩, -, hread, -⟩ |
      ⟨ac', property, value, rfl, hsignals⟩ | ⟨rfl, -, hs⟩ | ⟨val, rfl, hs⟩
    · rw [hstatus] at h
      refine .inl ⟨ih h, fun hop => ?_⟩
      -- the bit was not returned though it was pending, so it is masked
      by_contra henabled
      exact (pending_and_iff.mpr ⟨h, henabled⟩) (by rw [hread hop, UInt32.zero_and])
    · by_cases hbit : newStatus ac' = newStatus ac
      · exact .inr ⟨ac', property, value, rfl, hbit, hsignals⟩
      · refine .inl ⟨ih ?_, by simp⟩
        rw [BatteryState.step, (set_prop_signals hsignals ac' property value).1] at h
        exact pending_of_or hbit h
    · rw [hs] at h
      exact absurd UInt32.zero_and h
    · rw [hs] at h
      exact .inl ⟨ih h, by simp⟩

/-- A read of `INT_STATUS` that acknowledges finds no pending bit masked. -/
def NeverClearsMasked (ops : List Op) : Prop :=
  ∀ pre post, ops = pre ++ .read BATTERY_INT_STATUS :: post →
    (run pre).int_status &&& (run pre).int_enable ≠ 0 →
    ∀ ac, (run pre).int_status &&& newStatus ac ≠ 0 → (run pre).int_enable &&& newStatus ac ≠ 0

/-- Everything that is owed is pending. -/
def OwedPending (ops : List Op) : Prop := ∀ bit, Owed ops bit → (run ops).int_status &&& bit ≠ 0

theorem Owed.exists_newStatus {ops : List Op} {bit : UInt32} (h : Owed ops bit) : ∃ ac, newStatus ac = bit := by
  obtain ⟨_, ac, _, _, _, _, hbit, _⟩ := h
  exact ⟨ac, hbit⟩

theorem owedPending_concat_iff {ops : List Op} (h : OwedPending ops) (op : Op) :
    OwedPending (ops ++ [op]) ↔ (op = .read BATTERY_INT_STATUS →
      (run ops).int_status &&& (run ops).int_enable ≠ 0 →
      ∀ ac, (run ops).int_status &&& newStatus ac ≠ 0 → (run ops).int_enable &&& newStatus ac ≠ 0) := by
  constructor
  · intro hkept hop hactive ac hpending henabled
    subst hop
    have howed : Owed (ops ++ [.read BATTERY_INT_STATUS]) (newStatus ac) :=
      owed_concat_iff.mpr (.inl ⟨owed_of_pending ops ac hpending, fun _ => henabled⟩)
    have hcleared := hkept _ howed
    rw [run_concat, BatteryState.step, read_status, if_pos hactive] at hcleared
    exact hcleared UInt32.zero_and
  · intro hread bit howed
    obtain ⟨ac, rfl⟩ := howed.exists_newStatus
    rw [run_concat]
    rcases owed_concat_iff.mp howed with ⟨hbefore, hmasked⟩ | ⟨ac', property, value, rfl, hbit, hsignals⟩
    · have hpending := h _ hbefore
      rcases step_cases (run ops) op with ⟨⟨-, hstatus, -⟩, -⟩ |
        ⟨ac', property, value, rfl, hsignals⟩ | ⟨rfl, hactive, -⟩ | ⟨val, rfl, hs⟩
      · rwa [hstatus]
      · rw [BatteryState.step, (set_prop_signals hsignals ac' property value).1]
        exact pending_or hpending _
      · exact absurd (hmasked rfl) (hread rfl hactive ac hpending)
      · rwa [hs]
    · rw [BatteryState.step, (set_prop_signals hsignals ac' property value).1, ← hbit]
      exact newStatus_pending _ ac'

/-- The next read of `INT_STATUS` that finds the bit of an owed change enabled returns it. -/
def Reported (ops : List Op) : Prop :=
  ∀ done bit, done ++ [.read BATTERY_INT_STATUS] <+: ops → Owed done bit →
    (run done).int_enable &&& bit ≠ 0 → ((run done).read BATTERY_INT_STATUS).1 &&& bit.toUInt64 ≠ 0

theorem read_status_pending {s : BatteryState} {ac : Int32} (hpending : s.int_status &&& newStatus ac ≠ 0)
    (henabled : s.int_enable &&& newStatus ac ≠ 0) :
    (s.read BATTERY_INT_STATUS).1 &&& (newStatus ac).toUInt64 ≠ 0 := by
  have hvalue : (s.read BATTERY_INT_STATUS).1 = (s.int_status &&& s.int_enable).toUInt64 := by
    rw [read_status]
    split <;> rfl
  rw [hvalue, ← UInt32.toUInt64_and]
  intro hzero
  exact pending_and_iff.mpr ⟨hpending, henabled⟩ (UInt32.toUInt64_inj.mp hzero)

/-- **No notification is lost**, exactly if no read of `INT_STATUS` in the run acknowledges while a pending
bit is masked. A change is then pending until a read finds its bit enabled, and this read returns it. -/
theorem notifications_kept_iff (ops : List Op) :
    ((∀ done, done <+: ops → OwedPending done) ∧ Reported ops) ↔ NeverClearsMasked ops := by
  have hpending : (∀ done, done <+: ops → OwedPending done) ↔ NeverClearsMasked ops := by
    rw [forall_initial_iff_hist (I := OwedPending) (fun bit h => absurd h (not_owed_nil bit))
      (fun _ op h => owedPending_concat_iff h op)]
    constructor
    · intro h pre post hops
      exact h pre _ post hops rfl
    · intro h pre op post hops hop
      subst hop
      exact h pre post hops
  rw [← hpending]
  refine and_iff_left_of_imp fun hkept => ?_
  intro done bit hdone howed henabled
  obtain ⟨ac, rfl⟩ := howed.exists_newStatus
  exact read_status_pending (hkept done ((List.prefix_append ..).trans hdone) _ howed) henabled

/-- Both bits are pending and only the one of the power supply is enabled. The guest reads it, enables the
battery's bit and reads again: the change of the capacity is gone. -/
theorem masked_change_is_lost :
    ¬ Reported [.setProp 0 .HAS_BATTERY 1, .realize, .write BATTERY_INT_ENABLE 2, .setProp 1 .ONLINE 0,
        .setProp 0 .CAPACITY 50, .read BATTERY_INT_STATUS, .write BATTERY_INT_ENABLE 1,
        .read BATTERY_INT_STATUS] := by
  intro h
  have howed : Owed [.setProp 0 .HAS_BATTERY 1, .realize, .write BATTERY_INT_ENABLE 2, .setProp 1 .ONLINE 0,
      .setProp 0 .CAPACITY 50, .read BATTERY_INT_STATUS, .write BATTERY_INT_ENABLE 1]
      BATTERY_STATUS_CHANGED := by
    refine ⟨[.setProp 0 .HAS_BATTERY 1, .realize, .write BATTERY_INT_ENABLE 2, .setProp 1 .ONLINE 0], 0,
      .CAPACITY, 50, [.read BATTERY_INT_STATUS, .write BATTERY_INT_ENABLE 1], rfl, rfl,
      ⟨by decide, by decide⟩, ?_⟩
    intro mid₁ mid₂ hmid
    cases mid₁ with
    | nil => decide
    | cons op mid₁ =>
      -- the write is no read of the status
      obtain ⟨-, hrest⟩ := List.cons.inj hmid
      cases mid₁ with
      | nil => exact absurd (List.cons.inj hrest).1 (by decide)
      | cons op' mid₁ => simp at hrest
  exact h _ _ (List.prefix_refl _) howed (by decide) (by decide)

end Goldfish.Battery
