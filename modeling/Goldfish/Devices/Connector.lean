import Mathlib.Data.List.Basic
import Mathlib.Data.List.GetD

/-!
# Goldfish.Devices.Connector

The **`Connector`** (`Connector.h`, `Connector.cpp`): the plug a guest talks to first. It
collects bytes up to the first zero, reads a request off them, and hands the socket over to the
device the request names, with all bytes that came behind the zero. If it cannot,
an `ErrorPlug` takes its place.

A device is what its factory returned, of an arbitrary type `δ`; the `Socket` holds
the plug that is connected at the moment and a record of the factory calls and of the data
that was passed to the device.

* **The order of the arguments.** In its buffered branch `onReceive` takes an address and a size of
  `mBuffer` and moves `mBuffer` away, all in the arguments of one call. C++ does not say what comes
  first, so the order is a parameter (`ArgumentOrder`). A device that is handed bytes outside of
  the buffer reads what is not there: then there is no result (`none`).
* **What a request asks for.** `Env.requested` is the entry and the arguments of a request, and
  `Env.processRequest_eq` what is done with them; the grammar of requests is `Requests`, and
  `Env.requested_of_names`, `Env.requested_of_not_names` are the two against each other.
-/

namespace Goldfish.Devices.Connector

/-- What is sent over the connection. -/
abbrev Bytes := List UInt8

/-! ### C strings -/

/-- `strncmp`. A string is given by its characters up to the terminator. -/
def strncmp : (s1 s2 : Bytes) → (n : Nat) → Int
  | _, _, 0 => 0
  | s1, s2, n + 1 =>
      let c1 := s1.headD 0
      let c2 := s2.headD 0
      if c1 ≠ c2 then (c1.toNat : Int) - c2.toNat
      else if c1 = 0 then 0
      else strncmp s1.tail s2.tail n

/-- `qnameEquals`. -/
def qnameEquals (q : UInt8) (name qname : Bytes) : Bool :=
  q == qname.headD 0 && strncmp name qname.tail name.length == 0 && qname.getD (name.length + 1) 0 == 0

/-- All characters of the first string are there, and the same, in the second one. -/
theorem strncmp_eq_zero_iff {s1 s2 : Bytes} (h1 : 0 ∉ s1) (h2 : 0 ∉ s2) :
    strncmp s1 s2 s1.length = 0 ↔ s1 <+: s2 := by
  induction s1 generalizing s2 with
  | nil => simp [strncmp]
  | cons c s1 ih =>
    rw [List.mem_cons, not_or] at h1
    cases s2 with
    | nil =>
      -- the second string ends first, and `c` is not a terminator
      simp only [List.length_cons, strncmp, List.headD_cons, List.headD_nil, ne_eq, Ne.symm h1.1,
        not_false_eq_true, if_true, List.prefix_nil, reduceCtorEq, iff_false]
      have hpos : c.toNat ≠ 0 := fun h => h1.1 (UInt8.toNat_inj.mp h).symm
      simpa using hpos
    | cons c' s2 =>
      rw [List.mem_cons, not_or] at h2
      simp only [List.length_cons, strncmp, List.headD_cons, List.tail_cons, List.cons_prefix_cons]
      by_cases hc : c = c'
      · subst hc
        simp only [ne_eq, not_true_eq_false, if_false, Ne.symm h1.1, true_and]
        exact ih h1.2 h2.2
      · have hne : (c.toNat : Int) - c'.toNat ≠ 0 := by
          intro h
          exact hc (UInt8.toNat_inj.mp (by omega))
        simp only [ne_eq, hc, not_false_eq_true, if_true, hne, false_and]

/-- The comparison is equality. -/
theorem qnameEquals_iff {q : UInt8} {name qname : Bytes} (hq : q ≠ 0) (hname : 0 ∉ name)
    (hqname : 0 ∉ qname) : qnameEquals q name qname = true ↔ qname = q :: name := by
  unfold qnameEquals
  cases qname with
  | nil => simp [hq]
  | cons c s =>
    rw [List.mem_cons, not_or] at hqname
    simp only [List.headD_cons, List.tail_cons, List.getD_cons_succ, Bool.and_eq_true, beq_iff_eq,
      strncmp_eq_zero_iff hname hqname.2, List.cons.injEq]
    constructor
    · intro hboth
      obtain ⟨⟨rfl, ⟨more, rfl⟩⟩, hend⟩ := hboth
      refine ⟨rfl, ?_⟩
      cases more with
      | nil => exact List.append_nil name
      | cons x more =>
        -- a terminator would have to be among the characters
        rw [List.getD_append_right _ _ _ _ (Nat.le_refl _), Nat.sub_self, List.getD_cons_zero] at hend
        rw [List.mem_append, List.mem_cons, hend] at hqname
        exact absurd (.inr (.inl rfl)) hqname.2
    · intro hboth
      obtain ⟨rfl, rfl⟩ := hboth
      exact ⟨⟨rfl, List.prefix_refl _⟩, List.getD_eq_default _ _ (Nat.le_refl _)⟩

/-! ### The model -/

variable {δ : Type}

/-- `DeviceEntry`: `qname` is a C string, so there is no zero in it. -/
structure DeviceEntry (δ : Type) where
  qname : Bytes
  qname_ne_zero : 0 ∉ qname
  /-- `factory`, as a function of the arguments in the request. -/
  factory : (args : Bytes) → δ

/-- The plug of a socket. A device comes with the index of its entry. -/
inductive Plug (δ : Type) where
  | connector (mBuffer : Bytes)
  | device (index : Nat) (dev : δ)
  | errorPlug
deriving DecidableEq, Repr

/-- A socket with its plug, the factory calls (entry and arguments) and the data of the device's
`onReceive` calls. -/
structure Socket (δ : Type) where
  plug : Plug δ
  factoryCalls : List (Nat × Bytes)
  passed : List Bytes
deriving DecidableEq, Repr

/-- The order in which the compiler evaluates the arguments `&mBuffer[requestSize + 1]`,
`mBuffer.size() - (requestSize + 1)` and `std::move(mBuffer)` of `processRequest`. The last one
leaves an empty vector behind, as the parameter it initialises is a `Buffer` by value. -/
structure ArgumentOrder where
  moveBeforeAddress : Bool
  moveBeforeSize : Bool
deriving DecidableEq, Repr

/-- What is around the connector: the table, how the devices receive data, and the compiler's order
of arguments. -/
structure Env (δ : Type) where
  devicesEntries : List (DeviceEntry δ)
  devOnReceive : δ → Bytes → Bool × δ
  argumentOrder : ArgumentOrder

/-- A socket with a new `Connector`. -/
def Socket.init : Socket δ := { plug := .connector [], factoryCalls := [], passed := [] }

/-- `onReceive` of a device. -/
def Env.deviceReceive (env : Env δ) (index : Nat) (dev : δ) (data : Bytes) (s : Socket δ) :
    Bool × Socket δ :=
  let (result, dev) := env.devOnReceive dev data
  (result, { s with plug := .device index dev, passed := s.passed ++ [data] })

/-- `Connector::switchTo`. What the new plug returns for the unconsumed data is not looked at. -/
def Env.switchTo (env : Env δ) (isQemud : Bool) (device args : Bytes) (unconsumed : Option Bytes) :
    (entries : List (DeviceEntry δ)) → (index : Nat) → Socket δ → Option (Bool × Socket δ)
  | [], _, s => some (false, s)
  | de :: entries, index, s =>
      let q : UInt8 := if isQemud then 0x71 else 0x2D
      if qnameEquals q device de.qname then
        let newPlug := de.factory args
        let s := { s with
          plug := .device index newPlug, factoryCalls := s.factoryCalls ++ [(index, args)] }
        unconsumed.map fun unconsumed => (true, (env.deviceReceive index newPlug unconsumed s).2)
      else env.switchTo isQemud device args unconsumed entries (index + 1) s

/-- `kPipePrefix`: `pipe:`. -/
def kPipePrefix : Bytes := [0x70, 0x69, 0x70, 0x65, 0x3A]

/-- `kQemudPrefix`: `qemud:`. -/
def kQemudPrefix : Bytes := [0x71, 0x65, 0x6D, 0x75, 0x64, 0x3A]

/-- `find(':')` and the two `substr` behind it. -/
def splitColon (request : Bytes) : Bytes × Bytes :=
  let colon := request.findIdx (· == 0x3A)
  if colon < request.length then (request.take colon, request.drop (colon + 1)) else (request, [])

/-- `Connector::processRequest`. -/
def Env.processRequest (env : Env δ) (request : Bytes) (unconsumed : Option Bytes) (s : Socket δ) :
    Option (Bool × Socket δ) :=
  if kPipePrefix.isPrefixOf request then
    let request := request.drop kPipePrefix.length
    let isQemud := kQemudPrefix.isPrefixOf request
    let request := if isQemud then request.drop kQemudPrefix.length else request
    let (device, args) := splitColon request
    if device.isEmpty then some (false, s)
    else env.switchTo isQemud device args unconsumed env.devicesEntries 0 s
  else some (false, s)

/-- The bytes at `&mBuffer[requestSize + 1]`, `mBuffer.size() - (requestSize + 1)` of them, if all of
these belong to the buffer. -/
def ArgumentOrder.unconsumed (order : ArgumentOrder) (mBuffer : Bytes) (requestSize : Nat) :
    Option Bytes :=
  let behind := (if order.moveBeforeAddress then [] else mBuffer).drop (requestSize + 1)
  let size := (if order.moveBeforeSize then [] else mBuffer).length
  -- from a size of zero the difference wraps to nearly `2 ^ 64`
  if requestSize + 1 ≤ size ∧ size - (requestSize + 1) ≤ behind.length then
    some (behind.take (size - (requestSize + 1)))
  else none

/-- `Connector::onReceive`. The request is taken from the data if nothing was buffered, and from the
buffer otherwise; its bytes stay where they are when the buffer is moved. -/
def Env.connectorReceive (env : Env δ) (mBuffer data8 : Bytes) (s : Socket δ) :
    Option (Bool × Socket δ) :=
  let zero8 := data8.findIdx (· == 0)
  if zero8 < data8.length then do
    let (result, s) ←
      if mBuffer.isEmpty then
        env.processRequest (data8.take zero8) (some (data8.drop (zero8 + 1))) s
      else
        let mBuffer := mBuffer ++ data8
        let requestSize := mBuffer.length - (data8.length - zero8)
        env.processRequest (mBuffer.take requestSize)
          (env.argumentOrder.unconsumed mBuffer requestSize) s
    return (result, if !result then { s with plug := .errorPlug } else s)
  else some (true, { s with plug := .connector (mBuffer ++ data8) })

/-- `onReceive` of the plug that is connected. -/
def Env.receive (env : Env δ) (data : Bytes) (s : Socket δ) : Option (Bool × Socket δ) :=
  match s.plug with
  | .connector mBuffer => env.connectorReceive mBuffer data s
  | .device index dev => some (env.deviceReceive index dev data s)
  | .errorPlug => some (false, s)

/-- The packets of a guest, with the result of `onReceive` for each. -/
def Env.run (env : Env δ) : List Bytes → Socket δ → Option (List Bool × Socket δ)
  | [], s => some ([], s)
  | packet :: packets, s => do
      let (result, s) ← env.receive packet s
      let (results, s) ← env.run packets s
      return (result :: results, s)

/-! ### What a request asks for -/

/-- The entry the search finds, with its index. -/
def findEntry (isQemud : Bool) (device : Bytes) :
    (entries : List (DeviceEntry δ)) → (index : Nat) → Option (Nat × DeviceEntry δ)
  | [], _ => none
  | de :: entries, index =>
      if qnameEquals (if isQemud then 0x71 else 0x2D) device de.qname then some (index, de)
      else findEntry isQemud device entries (index + 1)

/-- The entry for a request and the arguments for its factory. -/
def Env.requested (env : Env δ) (request : Bytes) : Option (Nat × DeviceEntry δ × Bytes) :=
  if kPipePrefix.isPrefixOf request then
    let request := request.drop kPipePrefix.length
    let isQemud := kQemudPrefix.isPrefixOf request
    let request := if isQemud then request.drop kQemudPrefix.length else request
    let (device, args) := splitColon request
    if device.isEmpty then none
    else (findEntry isQemud device env.devicesEntries 0).map fun found => (found.1, found.2, args)
  else none

/-- A socket whose plug was made by a factory. -/
def Socket.plugIn (s : Socket δ) (index : Nat) (de : DeviceEntry δ) (args : Bytes) : Socket δ :=
  { s with plug := .device index (de.factory args), factoryCalls := s.factoryCalls ++ [(index, args)] }

theorem Env.switchTo_eq (env : Env δ) (isQemud : Bool) (device args : Bytes)
    (unconsumed : Option Bytes) (entries : List (DeviceEntry δ)) (index : Nat) (s : Socket δ) :
    env.switchTo isQemud device args unconsumed entries index s =
      match findEntry isQemud device entries index with
      | none => some (false, s)
      | some (index, de) => unconsumed.map fun unconsumed =>
          (true, (env.deviceReceive index (de.factory args) unconsumed (s.plugIn index de args)).2) := by
  induction entries generalizing index with
  | nil => rfl
  | cons de entries ih =>
    rw [Env.switchTo, findEntry]
    by_cases hname : qnameEquals (if isQemud then 0x71 else 0x2D) device de.qname = true
    · rw [if_pos hname]
      simp only [if_pos hname]
      rfl
    · rw [if_neg hname]
      simp only [if_neg hname]
      exact ih (index + 1)

/-- **A request is answered the same way whatever comes behind it**: the device gets the rest, if there is
a device. Only then does it matter that the rest can be read. -/
theorem Env.processRequest_eq (env : Env δ) (request : Bytes) (unconsumed : Option Bytes)
    (s : Socket δ) :
    env.processRequest request unconsumed s =
      match env.requested request with
      | none => some (false, s)
      | some (index, de, args) => unconsumed.map fun unconsumed =>
          (true, (env.deviceReceive index (de.factory args) unconsumed (s.plugIn index de args)).2) := by
  unfold Env.processRequest Env.requested
  by_cases hpipe : kPipePrefix.isPrefixOf request = true
  · rw [if_pos hpipe, if_pos hpipe]
    dsimp only
    generalize kQemudPrefix.isPrefixOf (request.drop kPipePrefix.length) = isQemud
    generalize splitColon (if isQemud = true then _ else _) = parts
    by_cases hempty : parts.1.isEmpty = true
    · rw [if_pos hempty, if_pos hempty]
    · rw [if_neg hempty, if_neg hempty, env.switchTo_eq]
      cases findEntry isQemud parts.1 env.devicesEntries 0 with
      | none => rfl
      | some found => rfl
  · rw [if_neg hpipe, if_neg hpipe]

/-! ### Requests -/

/-- The bytes before the zero ask for `device` with `args`: `pipe:`, then `qemud:` if it is a qemud
device, a name, and arguments behind a colon. A request that goes on with `qemud:` is one for a
qemud device. -/
structure Requests (request : Bytes) (isQemud : Bool) (device args : Bytes) : Prop where
  device_ne : device ≠ []
  no_colon : 0x3A ∉ device
  bytes : ∃ tail, (tail = [] ∧ args = [] ∨ tail = 0x3A :: args) ∧
    request = kPipePrefix ++ (if isQemud then kQemudPrefix else []) ++ (device ++ tail) ∧
    (isQemud = false → ¬ kQemudPrefix <+: device ++ tail)

/-- The entry for a device name. -/
def Env.Names (env : Env δ) (request : Bytes) (index : Nat) (args : Bytes) : Prop :=
  ∃ isQemud device de, Requests request isQemud device args ∧ env.devicesEntries[index]? = some de ∧
    de.qname = (if isQemud then 0x71 else 0x2D) :: device

/-- `std::find` stops at the first match. -/
theorem findIdx_append_cons {l : Bytes} {x : UInt8} (hl : x ∉ l) (l' : Bytes) :
    (l ++ x :: l').findIdx (· == x) = l.length := by
  induction l with
  | nil => simp [List.findIdx_cons]
  | cons y l ih =>
    rw [List.mem_cons, not_or] at hl
    have hy : (y == x) = false := beq_eq_false_iff_ne.mpr (Ne.symm hl.1)
    rw [List.cons_append, List.findIdx_cons, hy, cond_false, ih hl.2, List.length_cons]

theorem findIdx_of_notMem {l : Bytes} {x : UInt8} (hl : x ∉ l) :
    l.findIdx (· == x) = l.length := by
  refine List.findIdx_eq_length.mpr fun y hy => ?_
  rw [beq_eq_false_iff_ne]
  exact fun h => hl (h ▸ hy)

theorem append_cons_inj {l l' r r' : Bytes} {x : UInt8} (hl : x ∉ l) (hl' : x ∉ l')
    (h : l ++ x :: r = l' ++ x :: r') : l = l' ∧ r = r' := by
  have hlen := findIdx_append_cons hl r
  rw [h, findIdx_append_cons hl' r'] at hlen
  obtain ⟨hfront, hback⟩ := List.append_inj h hlen.symm
  exact ⟨hfront, (List.cons.inj hback).2⟩

theorem splitColon_append {device tail args : Bytes} (hcolon : 0x3A ∉ device)
    (htail : tail = [] ∧ args = [] ∨ tail = 0x3A :: args) :
    splitColon (device ++ tail) = (device, args) := by
  rcases htail with ⟨rfl, rfl⟩ | rfl
  · simp [splitColon, findIdx_of_notMem hcolon]
  · simp [splitColon, findIdx_append_cons hcolon]

/-- What is read off a request, in the words of the grammar. -/
theorem splitColon_spec (request : Bytes) :
    ∃ tail, 0x3A ∉ (splitColon request).1 ∧
      (tail = [] ∧ (splitColon request).2 = [] ∨ tail = 0x3A :: (splitColon request).2) ∧
      request = (splitColon request).1 ++ tail := by
  by_cases hmem : (0x3A : UInt8) ∈ request
  · obtain ⟨device, args, rfl, hcolon⟩ := List.eq_append_cons_of_mem hmem
    rw [splitColon_append hcolon (.inr rfl)]
    exact ⟨0x3A :: args, hcolon, .inr rfl, rfl⟩
  · have hsplit : splitColon (request ++ []) = (request, []) := splitColon_append hmem (.inl ⟨rfl, rfl⟩)
    rw [List.append_nil] at hsplit
    rw [hsplit]
    exact ⟨[], hmem, .inl ⟨rfl, rfl⟩, (List.append_nil request).symm⟩

/-- A well-formed request reaches the table. -/
theorem Env.requested_of_requests (env : Env δ) {request device args : Bytes} {isQemud : Bool}
    (h : Requests request isQemud device args) :
    env.requested request =
      (findEntry isQemud device env.devicesEntries 0).map fun found => (found.1, found.2, args) := by
  obtain ⟨hne, hcolon, tail, htail, rfl, hgreedy⟩ := h
  have hempty : device.isEmpty = false := List.isEmpty_eq_false_iff.mpr hne
  have hpipe : kPipePrefix.isPrefixOf (kPipePrefix ++ (if isQemud then kQemudPrefix else []) ++
      (device ++ tail)) = true := by
    rw [List.isPrefixOf_iff_prefix, List.append_assoc]
    exact List.prefix_append _ _
  unfold Env.requested
  rw [if_pos hpipe, List.append_assoc, List.drop_left]
  cases isQemud with
  | true =>
    have hqemud : kQemudPrefix.isPrefixOf (kQemudPrefix ++ (device ++ tail)) = true := by
      rw [List.isPrefixOf_iff_prefix]
      exact List.prefix_append _ _
    simp only [if_true, hqemud, List.drop_left, splitColon_append hcolon htail, hempty,
      Bool.false_eq_true, if_false]
  | false =>
    have hqemud : kQemudPrefix.isPrefixOf (device ++ tail) = false := by
      rw [Bool.eq_false_iff, Ne, List.isPrefixOf_iff_prefix]
      exact hgreedy rfl
    simp only [Bool.false_eq_true, if_false, List.nil_append, hqemud, splitColon_append hcolon htail,
      hempty]

/-- Any other request asks for nothing. -/
theorem Env.requested_of_not_requests (env : Env δ) {request : Bytes}
    (h : ∀ isQemud device args, ¬ Requests request isQemud device args) :
    env.requested request = none := by
  unfold Env.requested
  by_cases hpipe : kPipePrefix <+: request
  · obtain ⟨request, rfl⟩ := hpipe
    rw [if_pos (List.isPrefixOf_iff_prefix.mpr (List.prefix_append _ _)), List.drop_left]
    by_cases hqemud : kQemudPrefix <+: request
    · obtain ⟨request, rfl⟩ := hqemud
      have hpre : kQemudPrefix.isPrefixOf (kQemudPrefix ++ request) = true :=
        List.isPrefixOf_iff_prefix.mpr (List.prefix_append _ _)
      obtain ⟨tail, hcolon, htail, hrequest⟩ := splitColon_spec request
      have hempty : (splitColon request).1 = [] := by
        by_contra hne
        exact h true _ _ ⟨hne, hcolon, tail, htail, by rw [← hrequest, List.append_assoc]; rfl,
          fun hfalse => absurd hfalse (by decide)⟩
      simp only [hpre, if_true, List.drop_left, hempty, List.isEmpty_nil]
    · have hpre : kQemudPrefix.isPrefixOf request = false := by
        rw [Bool.eq_false_iff, Ne, List.isPrefixOf_iff_prefix]
        exact hqemud
      obtain ⟨tail, hcolon, htail, hrequest⟩ := splitColon_spec request
      have hempty : (splitColon request).1 = [] := by
        by_contra hne
        exact h false _ _ ⟨hne, hcolon, tail, htail, by rw [← hrequest, List.append_assoc]; rfl,
          fun _ => by rw [← hrequest]; exact hqemud⟩
      simp only [hpre, Bool.false_eq_true, if_false, hempty, List.isEmpty_nil, if_true]
  · rw [if_neg (fun hpre => hpipe (List.isPrefixOf_iff_prefix.mp hpre))]

/-- The search finds the first entry with the name, or none. -/
theorem findEntry_spec {isQemud : Bool} {device : Bytes} (hdevice : 0 ∉ device)
    (entries : List (DeviceEntry δ)) (index : Nat) :
    (∃ k de, entries[k]? = some de ∧ de.qname = (if isQemud then 0x71 else 0x2D) :: device ∧
      findEntry isQemud device entries index = some (index + k, de)) ∨
    ((∀ de ∈ entries, de.qname ≠ (if isQemud then 0x71 else 0x2D) :: device) ∧
      findEntry isQemud device entries index = none) := by
  induction entries generalizing index with
  | nil => exact .inr ⟨fun _ h => absurd h List.not_mem_nil, rfl⟩
  | cons de entries ih =>
    have hq : (if isQemud then 0x71 else 0x2D : UInt8) ≠ 0 := by cases isQemud <;> decide
    have heq := qnameEquals_iff hq hdevice de.qname_ne_zero
    unfold findEntry
    by_cases hname : de.qname = (if isQemud then 0x71 else 0x2D) :: device
    · exact .inl ⟨0, de, rfl, hname, if_pos (heq.mpr hname)⟩
    · rw [if_neg (fun h => hname (heq.mp h))]
      rcases ih (index + 1) with ⟨k, de', hget, hname', hfind⟩ | ⟨hnone, hfind⟩
      · refine .inl ⟨k + 1, de', hget, hname', ?_⟩
        rw [hfind, Nat.add_right_comm, Nat.add_assoc]
      · exact .inr ⟨List.forall_mem_cons.mpr ⟨hname, hnone⟩, hfind⟩

theorem Requests.device_ne_zero {request device args : Bytes} {isQemud : Bool}
    (h : Requests request isQemud device args) (hzero : 0 ∉ request) : 0 ∉ device := by
  obtain ⟨tail, -, rfl, -⟩ := h.bytes
  intro hmem
  exact hzero (List.mem_append_right _ (List.mem_append_left _ hmem))

/-- A request can be read in one way only. -/
theorem Requests.unique {request device device' args args' : Bytes} {isQemud isQemud' : Bool}
    (h : Requests request isQemud device args) (h' : Requests request isQemud' device' args') :
    isQemud = isQemud' ∧ device = device' ∧ args = args' := by
  obtain ⟨-, hcolon, tail, htail, rfl, hgreedy⟩ := h
  obtain ⟨-, hcolon', tail', htail', hbytes, hgreedy'⟩ := h'
  rw [List.append_assoc, List.append_assoc, List.append_cancel_left_eq] at hbytes
  have hq : isQemud = isQemud' := by
    cases isQemud <;> cases isQemud'
    · rfl
    · exact absurd ⟨_, hbytes.symm⟩ (hgreedy rfl)
    · exact absurd ⟨_, hbytes⟩ (hgreedy' rfl)
    · rfl
  subst hq
  rw [List.append_cancel_left_eq] at hbytes
  have hsplit := splitColon_append hcolon htail
  rw [hbytes, splitColon_append hcolon' htail'] at hsplit
  exact ⟨rfl, (Prod.mk.inj hsplit).1.symm, (Prod.mk.inj hsplit).2.symm⟩

/-- Two entries with one name are one entry. -/
theorem Env.index_unique {env : Env δ} (hdistinct : (env.devicesEntries.map (·.qname)).Nodup)
    {i k : Nat} {de de' : DeviceEntry δ} (hi : env.devicesEntries[i]? = some de)
    (hk : env.devicesEntries[k]? = some de') (h : de.qname = de'.qname) : i = k := by
  have hi' : (env.devicesEntries.map (·.qname))[i]? = some de.qname := by
    rw [List.getElem?_map, hi]
    rfl
  have hk' : (env.devicesEntries.map (·.qname))[k]? = some de.qname := by
    rw [List.getElem?_map, hk, h]
    rfl
  obtain ⟨hlt, -⟩ := List.getElem?_eq_some_iff.mp hi'
  exact (List.getElem?_inj hlt hdistinct).mp (hi'.trans hk'.symm)

/-- The grammar and the search agree on what a request asks for. -/
theorem Env.requested_of_names {env : Env δ} (hdistinct : (env.devicesEntries.map (·.qname)).Nodup)
    {request : Bytes} (hzero : 0 ∉ request) {index : Nat} {args : Bytes}
    (h : env.Names request index args) : ∃ de, env.requested request = some (index, de, args) := by
  obtain ⟨isQemud, device, de, hreq, hget, hname⟩ := h
  rw [env.requested_of_requests hreq]
  rcases findEntry_spec (hreq.device_ne_zero hzero) env.devicesEntries 0 with
    ⟨k, de', hget', hname', hfind⟩ | ⟨hnone, -⟩
  · obtain rfl : index = k := Env.index_unique hdistinct hget hget' (hname.trans hname'.symm)
    rw [hfind, Nat.zero_add]
    exact ⟨de', rfl⟩
  · exact absurd hname (hnone de (List.mem_of_getElem? hget))

theorem Env.requested_of_not_names {env : Env δ} {request : Bytes} (hzero : 0 ∉ request)
    (h : ¬ ∃ index args, env.Names request index args) : env.requested request = none := by
  by_cases hreq : ∃ isQemud device args, Requests request isQemud device args
  · obtain ⟨isQemud, device, args, hreq⟩ := hreq
    rw [env.requested_of_requests hreq]
    rcases findEntry_spec (hreq.device_ne_zero hzero) env.devicesEntries 0 with
      ⟨k, de, hget, hname, -⟩ | ⟨-, hfind⟩
    · exact absurd ⟨k, args, isQemud, device, de, hreq, hget, hname⟩ h
    · rw [hfind]
      rfl
  · exact env.requested_of_not_requests fun isQemud device args h => hreq ⟨isQemud, device, args, h⟩

end Goldfish.Devices.Connector
