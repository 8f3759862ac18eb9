import Goldfish.Devices.Handshake

/-!
# Goldfish.Devices.Refusal

**A device that refuses data.** The socket manager passes the packets of a guest to the plug until an
`onReceive` returns false; then the connection is torn down (`Env.session`). The data behind
the zero of a request may be in the packet of the zero, where the `Connector` passes it on, or in
a later one, where the socket manager does.

The connector drops the answer of the device, so a refusal is heard in the second case only; and the
data that a buffer held back is there only if the buffer is not moved too early (`ArgumentOrder.Keeps`).
`refusal_same_iff` has both. `Env.requested` is what a request asks for; it does not depend on the
data (`Env.processRequest_eq`), which is what makes the two sessions comparable.
-/

namespace Goldfish.Devices.Connector

variable {δ : Type}

/-! ### Sessions -/

/-- The packets of a guest until an `onReceive` returns false: the last answer, and the socket. A false
answer ends the connection. -/
def Env.session (env : Env δ) : List Bytes → Socket δ → Option (Bool × Socket δ)
  | [], s => some (true, s)
  | packet :: packets, s => do
      let (result, s) ← env.receive packet s
      if result then env.session packets s else return (false, s)

/-- A socket whose connector has collected some bytes. -/
def Socket.collecting (mBuffer : Bytes) : Socket δ :=
  { plug := .connector mBuffer, factoryCalls := [], passed := [] }

/-- The packets before the one with the zero are collected. -/
theorem Env.session_open (env : Env δ) (before after : List Bytes) (hzero : 0 ∉ before.flatten)
    {mBuffer : Bytes} {s : Socket δ} (hplug : s.plug = .connector mBuffer) :
    env.session (before ++ after) s =
      env.session after { s with plug := .connector (mBuffer ++ before.flatten) } := by
  induction before generalizing mBuffer s with
  | nil =>
    rw [List.nil_append, List.flatten_nil, List.append_nil, ← hplug]
  | cons packet before ih =>
    rw [List.flatten_cons, List.mem_append, not_or] at hzero
    have hreceive : env.receive packet s =
        some (true, { s with plug := .connector (mBuffer ++ packet) }) := by
      rw [Env.receive, hplug]
      exact env.connectorReceive_open mBuffer hzero.1 s
    rw [List.cons_append, Env.session, hreceive, Option.bind_eq_bind, Option.bind_some]
    dsimp only
    rw [if_pos rfl, ih hzero.2 rfl, List.flatten_cons, List.append_assoc]

/-- One packet for a device. -/
theorem Env.session_device (env : Env δ) (data : Bytes) {s : Socket δ} {index : Nat} {dev : δ}
    (hplug : s.plug = .device index dev) :
    (env.session [data] s).map Prod.fst = some (env.devOnReceive dev data).1 := by
  rw [Env.session, Env.receive, hplug, Option.bind_eq_bind, Option.bind_some]
  cases hanswer : env.devOnReceive dev data with
  | mk answer dev' =>
    simp only [Env.deviceReceive, Env.session, hanswer]
    cases answer with
    | false => rfl
    | true => rfl

/-- The packet with the zero, and what comes behind it. -/
theorem Env.session_zero (env : Env δ) (before : List Bytes) {mid : Bytes}
    (hzero : 0 ∉ before.flatten ++ mid) (rest : Bytes) (after : List Bytes) :
    (env.session (before ++ (mid ++ 0 :: rest) :: after) .init).map Prod.fst =
      match env.requested (before.flatten ++ mid) with
      | none => some false
      | some (index, de, args) =>
          if env.argumentOrder.Keeps before.flatten rest then
            (env.session after (env.deviceReceive index (de.factory args) rest
              ((Socket.collecting before.flatten).plugIn index de args)).2).map Prod.fst
          else none := by
  rw [List.mem_append, not_or] at hzero
  have hinit : (.init : Socket δ).plug = .connector [] := rfl
  rw [env.session_open before _ hzero.1 hinit, List.nil_append, Env.session, Env.receive]
  dsimp only
  rw [env.connectorReceive_zero before.flatten hzero.2, env.processRequest_eq]
  cases env.requested (before.flatten ++ mid) with
  | none => rfl
  | some found =>
    by_cases hkeeps : env.argumentOrder.Keeps before.flatten rest
    · simp only [hkeeps, if_true]
      rfl
    · simp only [hkeeps, if_false]
      rfl

/-- **A refusal in the packet of the request is heard exactly where there is none.** The two sessions end
with the same answer exactly if the request asks for no device, or the data can be read behind
the zero and the device takes it after the empty call that comes with its request. -/
theorem refusal_same_iff (env : Env δ) (before : List Bytes) (mid data : Bytes)
    (hzero : 0 ∉ before.flatten ++ mid) :
    (∃ answer, (env.session (before ++ [mid ++ 0 :: data]) .init).map Prod.fst = some answer ∧
        (env.session (before ++ [mid ++ [0], data]) .init).map Prod.fst = some answer) ↔
      ∀ index de args, env.requested (before.flatten ++ mid) = some (index, de, args) →
        env.argumentOrder.Keeps before.flatten data ∧
        (env.devOnReceive (env.devOnReceive (de.factory args) []).2 data).1 = true := by
  rw [env.session_zero before hzero data [], env.session_zero before hzero [] [data]]
  cases env.requested (before.flatten ++ mid) with
  | none => exact iff_of_true ⟨false, rfl, rfl⟩ fun index de args h => by cases h
  | some found =>
    obtain ⟨index, de, args⟩ := found
    dsimp only
    -- in a later packet the device answers for itself
    rw [env.session_device data rfl]
    constructor
    · rintro ⟨answer, hsame, hlater⟩ index' de' args' hfound
      cases hfound
      by_cases hkeeps : env.argumentOrder.Keeps before.flatten data
      · rw [if_pos hkeeps] at hsame
        rw [if_pos hkeeps.nil] at hlater
        cases hsame
        exact ⟨hkeeps, Option.some.inj hlater⟩
      · rw [if_neg hkeeps] at hsame
        cases hsame
    · intro haccept
      obtain ⟨hkeeps, htake⟩ := haccept index de args rfl
      rw [if_pos hkeeps, if_pos hkeeps.nil]
      exact ⟨true, rfl, congrArg some htake⟩

/-- A device `no` that takes no data but an empty packet. -/
def refusingEnv (argumentOrder : ArgumentOrder) : Env Unit where
  devicesEntries := [{ qname := [0x2D, 0x6E, 0x6F], qname_ne_zero := by decide, factory := fun _ => () }]
  devOnReceive := fun _ data => (data.isEmpty, ())
  argumentOrder

/-- The characters of `pipe:no`. -/
def pipeNo : Bytes := [0x70, 0x69, 0x70, 0x65, 0x3A, 0x6E, 0x6F]

/-- A request for no device is refused in both cases, whatever the order of the arguments. -/
theorem refusal_same_unknown : (0 : UInt8) ∉ ([[0x61]] : List Bytes).flatten ++ [0x61] ∧
    ∃ answer, ((refusingEnv ⟨true, true⟩).session [[0x61], [0x61, 0, 7]] .init).map Prod.fst = some answer ∧
      ((refusingEnv ⟨true, true⟩).session [[0x61], [0x61, 0], [7]] .init).map Prod.fst = some answer := by
  refine ⟨by decide,
    (refusal_same_iff (refusingEnv ⟨true, true⟩) [[0x61]] [0x61] [7] (by decide)).mpr ?_⟩
  intro index de args hrequested
  cases hrequested

/-- The data in the packet of the request is taken for good, in a later one it is refused. That is so for
any order of the arguments, as nothing was buffered. -/
theorem refusal_differs :
    ¬ ∀ (env : Env Unit) (before : List Bytes) (mid data : Bytes), 0 ∉ before.flatten ++ mid →
      ∃ answer, (env.session (before ++ [mid ++ 0 :: data]) .init).map Prod.fst = some answer ∧
        (env.session (before ++ [mid ++ [0], data]) .init).map Prod.fst = some answer := by
  intro hall
  obtain ⟨answer, hsame, hlater⟩ := hall (refusingEnv ⟨false, false⟩) [] pipeNo [7] (by decide)
  have htaken : ((refusingEnv ⟨false, false⟩).session [pipeNo ++ [0, 7]] .init).map Prod.fst = some true := by
    decide
  have hrefused : ((refusingEnv ⟨false, false⟩).session [pipeNo ++ [0], [7]] .init).map Prod.fst =
      some false := by decide
  rw [List.nil_append, htaken] at hsame
  rw [List.nil_append, hrefused, ← hsame] at hlater
  exact absurd hlater (by decide)

end Goldfish.Devices.Connector
