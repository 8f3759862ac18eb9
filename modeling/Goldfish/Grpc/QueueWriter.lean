import Goldfish.Lib.Interleaving

/-!
# Goldfish.Grpc.QueueWriter

The writer of the gRPC streams (`WithSimpleQueueWriter` in `SimpleAsyncGrpc.h`), which
keeps messages in a queue because gRPC allows one `StartWrite` at a time.

Any thread may call `Write`, and gRPC calls `OnWriteDone` once for each write that was
started, on any thread. Each section under `mWritelock` is one atomic step, so other
threads come in between the entry of a call, its own section and `NextWrite`. Beside
the writer, `Stream` has what gRPC knows (the writes it has not answered) and two
records, of what was pushed and of what was started.

`Phase` is the invariant: a write is outstanding, or answered by a call that is still
to pop, or there is none of both.
-/

namespace Goldfish.Grpc

open Goldfish.Lib

variable {T W : Type}

/-! ### The writer -/

/-- `WithSimpleQueueWriter`. -/
structure WithSimpleQueueWriter (W : Type) where
  mWriteQueue : List W
  mWriting : Bool

namespace WithSimpleQueueWriter

/-- The section of `Write`. -/
def push (writer : WithSimpleQueueWriter W) (msg : W) : WithSimpleQueueWriter W :=
  { writer with mWriteQueue := writer.mWriteQueue ++ [msg] }

/-- The section of `OnWriteDone`. To pop from an empty queue is undefined. -/
def pop (writer : WithSimpleQueueWriter W) : Option (WithSimpleQueueWriter W) :=
  match writer.mWriteQueue with
  | [] => none
  | _ :: rest => some ⟨rest, false⟩

/-- The section of `NextWrite`, with the message that is given to `StartWrite`. -/
def NextWrite (writer : WithSimpleQueueWriter W) : WithSimpleQueueWriter W × Option W :=
  match writer.mWriteQueue with
  | [] => (writer, none)
  | front :: _ => if !writer.mWriting then ({ writer with mWriting := true }, some front) else (writer, none)

end WithSimpleQueueWriter

/-! ### Calls -/

/-- Where a thread is in a call: the section that comes next. -/
inductive Call (W : Type) where
  | idle
  | Write (msg : W)
  | OnWriteDone (ok : Bool)
  | NextWrite

/-- The writer, gRPC and the records. -/
structure Stream (W : Type) where
  writer : WithSimpleQueueWriter W
  /-- The writes that gRPC was given and for which it has not called `OnWriteDone`. -/
  outstanding : List W
  pushed : List W
  started : List W

/-- A step of a thread: a call is entered, or the next section of the call runs. -/
inductive Action (W : Type) where
  | Write (msg : W)
  | OnWriteDone (ok : Bool)
  | locked

/-- Why a step cannot be taken. -/
inductive Stop where
  | notEnabled
  | popOfEmpty
deriving DecidableEq

/-- A message is handed to the stream. -/
def Stream.start (stream : Stream W) (writer : WithSimpleQueueWriter W) : Option W → Stream W
  | none => { stream with writer := writer }
  | some msg => { stream with
      writer := writer, outstanding := stream.outstanding ++ [msg], started := stream.started ++ [msg] }

/-- One locked section, or the begin of a call. -/
def atom (stream : Stream W) : Call W → Action W → Except Stop (Stream W × Call W)
  | .idle, .Write msg => .ok (stream, .Write msg)
  | .idle, .OnWriteDone ok =>
    match stream.outstanding with
    | [] => .error .notEnabled
    | _ :: rest => .ok ({ stream with outstanding := rest }, .OnWriteDone ok)
  | .Write msg, .locked =>
    .ok ({ stream with writer := stream.writer.push msg, pushed := stream.pushed ++ [msg] }, .NextWrite)
  | .OnWriteDone _, .locked =>
    match stream.writer.pop with
    | none => .error .popOfEmpty
    | some writer => .ok ({ stream with writer := writer }, .NextWrite)
  | .NextWrite, .locked =>
    let (writer, msg) := stream.writer.NextWrite
    .ok (stream.start writer msg, .idle)
  | _, _ => .error .notEnabled

/-- The threads and the stream they share. -/
abbrev World (T W : Type) := Threads T (Stream W) (Call W)

/-- One step of one thread. -/
def World.step [DecidableEq T] (world : World T W) (act : T × Action W) : Except Stop (World T W) :=
  Threads.step (fun _ => atom) world act

/-- An empty queue, and no calls. -/
def World.initial : World T W := ⟨⟨⟨[], false⟩, [], [], []⟩, fun _ => .idle⟩

/-- What happens on all threads, in some order. -/
def run [DecidableEq T] (acts : List (T × Action W)) : Except Stop (World T W) := acts.foldlM World.step World.initial

/-! ### What a step does -/

/-- The steps of a thread, one for each section. -/
inductive Stepped [DecidableEq T] (world : World T W) (t : T) : World T W → Prop
  | enterWrite (msg : W) (hidle : world.locals t = .idle) :
      Stepped world t ⟨world.shared, Function.update world.locals t (.Write msg)⟩
  | enterDone (ok : Bool) (front : W) (rest : List W) (hidle : world.locals t = .idle)
      (hfront : world.shared.outstanding = front :: rest) :
      Stepped world t
        ⟨{ world.shared with outstanding := rest }, Function.update world.locals t (.OnWriteDone ok)⟩
  | push (msg : W) (hcall : world.locals t = .Write msg) :
      Stepped world t
        ⟨{ world.shared with writer := world.shared.writer.push msg, pushed := world.shared.pushed ++ [msg] },
          Function.update world.locals t .NextWrite⟩
  | pop (ok : Bool) (front : W) (rest : List W) (hcall : world.locals t = .OnWriteDone ok)
      (hqueue : world.shared.writer.mWriteQueue = front :: rest) :
      Stepped world t
        ⟨{ world.shared with writer := ⟨rest, false⟩ }, Function.update world.locals t .NextWrite⟩
  | start (front : W) (rest : List W) (hcall : world.locals t = .NextWrite)
      (hwriting : world.shared.writer.mWriting = false)
      (hqueue : world.shared.writer.mWriteQueue = front :: rest) :
      Stepped world t
        ⟨world.shared.start ⟨front :: rest, true⟩ (some front), Function.update world.locals t .idle⟩
  | leave (hcall : world.locals t = .NextWrite)
      (hbusy : world.shared.writer.mWriting = true ∨ world.shared.writer.mWriteQueue = []) :
      Stepped world t ⟨world.shared, Function.update world.locals t .idle⟩

section Steps

variable [DecidableEq T] {world world' : World T W} {t : T} {a : Action W}

theorem stepped_of_step (h : world.step (t, a) = .ok world') : Stepped world t world' := by
  obtain ⟨stream, call, hatom, rfl⟩ := Threads.step_eq_ok.mp h
  unfold atom at hatom
  split at hatom
  · obtain ⟨rfl, rfl⟩ := Prod.mk.inj (Except.ok.inj hatom)
    exact .enterWrite _ ‹_›
  · split at hatom
    · cases hatom
    · obtain ⟨rfl, rfl⟩ := Prod.mk.inj (Except.ok.inj hatom)
      exact .enterDone _ _ _ ‹_› ‹_›
  · obtain ⟨rfl, rfl⟩ := Prod.mk.inj (Except.ok.inj hatom)
    exact .push _ ‹_›
  · rename_i ok hcall
    unfold WithSimpleQueueWriter.pop at hatom
    cases hqueue : world.shared.writer.mWriteQueue with
    | nil => simp [hqueue] at hatom
    | cons front rest =>
      simp only [hqueue] at hatom
      obtain ⟨rfl, rfl⟩ := Prod.mk.inj (Except.ok.inj hatom)
      exact .pop ok front rest hcall hqueue
  · rename_i hcall
    unfold WithSimpleQueueWriter.NextWrite at hatom
    cases hqueue : world.shared.writer.mWriteQueue with
    | nil =>
      simp only [hqueue] at hatom
      obtain ⟨rfl, rfl⟩ := Prod.mk.inj (Except.ok.inj hatom)
      exact .leave hcall (.inr hqueue)
    | cons front rest =>
      cases hwriting : world.shared.writer.mWriting with
      | true =>
        simp only [hqueue, hwriting] at hatom
        obtain ⟨rfl, rfl⟩ := Prod.mk.inj (Except.ok.inj hatom)
        exact .leave hcall (.inl hwriting)
      | false =>
        simp only [hqueue, hwriting] at hatom
        obtain ⟨rfl, rfl⟩ := Prod.mk.inj (Except.ok.inj hatom)
        exact .start front rest hcall hwriting hqueue
  · cases hatom

end Steps

/-! ### The invariant -/

/-- The thread is about to pop. -/
def Answering (world : World T W) (t : T) : Prop := ∃ ok, world.locals t = .OnWriteDone ok

/-- How gRPC and the writer agree. -/
inductive Phase (world : World T W) : Prop
  | free (hwriting : world.shared.writer.mWriting = false) (hnone : world.shared.outstanding = [])
      (hanswer : ∀ t, ¬ Answering world t)
  | sent (front : W) (rest : List W) (hwriting : world.shared.writer.mWriting = true)
      (hqueue : world.shared.writer.mWriteQueue = front :: rest)
      (hone : world.shared.outstanding = [front]) (hanswer : ∀ t, ¬ Answering world t)
  | answered (t : T) (front : W) (rest : List W) (hwriting : world.shared.writer.mWriting = true)
      (hqueue : world.shared.writer.mWriteQueue = front :: rest)
      (hnone : world.shared.outstanding = []) (hanswer : ∀ t', Answering world t' ↔ t' = t)

/-- What was started are the messages that left the queue and, while there is a write, its front. -/
def Recorded (stream : Stream W) : Prop :=
  ∃ popped, stream.pushed = popped ++ stream.writer.mWriteQueue ∧
    stream.started = popped ++ if stream.writer.mWriting then stream.writer.mWriteQueue.take 1 else []

/-- Somebody will look at the queue. -/
def Attended (world : World T W) : Prop :=
  world.shared.writer.mWriting = false → world.shared.writer.mWriteQueue ≠ [] →
    ∃ t, world.locals t = .NextWrite

/-- What holds in every run. -/
structure Inv (world : World T W) : Prop where
  phase : Phase world
  recorded : Recorded world.shared
  attended : Attended world

theorem inv_initial : Inv (World.initial : World T W) where
  phase := .free rfl rfl fun _ h => nomatch h
  recorded := ⟨[], rfl, rfl⟩
  attended := fun _ h => absurd rfl h

section Invariant

variable [DecidableEq T] {world world' : World T W} {t : T}

theorem answering_update (stream : Stream W) {call : Call W} (hbefore : ¬ Answering world t)
    (hafter : ∀ ok, call ≠ .OnWriteDone ok) (t' : T) :
    Answering ⟨stream, Function.update world.locals t call⟩ t' ↔ Answering world t' := by
  by_cases ht : t' = t
  · subst ht
    refine iff_of_false ?_ hbefore
    rintro ⟨ok, hcall⟩
    exact hafter ok (by simpa using hcall)
  · simp [Answering, ht]

omit [DecidableEq T] in
theorem not_answering {call : Call W} (h : world.locals t = call) (hcall : ∀ ok, call ≠ .OnWriteDone ok) :
    ¬ Answering world t := by
  rintro ⟨ok, hok⟩
  exact hcall ok (h.symm.trans hok)

/-- Nothing changes between gRPC and the writer while other calls are entered, push and leave. -/
theorem Phase.quiet (h : Phase world) {stream : Stream W} {call : Call W} (hbefore : ¬ Answering world t)
    (hafter : ∀ ok, call ≠ .OnWriteDone ok) (hwriting : stream.writer.mWriting = world.shared.writer.mWriting)
    (hqueue : world.shared.writer.mWriteQueue <+: stream.writer.mWriteQueue)
    (houtstanding : stream.outstanding = world.shared.outstanding) :
    Phase ⟨stream, Function.update world.locals t call⟩ := by
  have hanswering := answering_update stream hbefore hafter
  cases h with
  | free hfree hnone hanswer =>
    exact .free (hwriting.trans hfree) (houtstanding.trans hnone) fun t' => (hanswering t').not.mpr (hanswer t')
  | sent front rest hbusy hfront hone hanswer =>
    obtain ⟨more, hmore⟩ := hqueue
    refine .sent front (rest ++ more) (hwriting.trans hbusy) ?_ (houtstanding.trans hone)
      fun t' => (hanswering t').not.mpr (hanswer t')
    rw [← hmore, hfront, List.cons_append]
  | answered t₀ front rest hbusy hfront hnone hanswer =>
    obtain ⟨more, hmore⟩ := hqueue
    refine .answered t₀ front (rest ++ more) (hwriting.trans hbusy) ?_ (houtstanding.trans hnone)
      fun t' => (hanswering t').trans (hanswer t')
    rw [← hmore, hfront, List.cons_append]

theorem Phase.step (h : Phase world) (hstep : Stepped world t world') : Phase world' := by
  cases hstep with
  | enterWrite msg hidle =>
    exact h.quiet (not_answering hidle nofun) nofun rfl (List.prefix_refl _) rfl
  | enterDone ok front rest hidle hfront =>
    cases h with
    | free _ hnone _ => simp [hnone] at hfront
    | answered _ _ _ _ _ hnone _ => simp [hnone] at hfront
    | sent front' rest' hbusy hqueue hone hanswer =>
      obtain ⟨-, rfl⟩ := List.cons.inj (hone.symm.trans hfront)
      refine .answered t front' rest' hbusy hqueue rfl fun t' => ?_
      by_cases ht : t' = t
      · simp [Answering, ht]
      · have hother : ∀ ok, world.locals t' ≠ .OnWriteDone ok := fun ok hok => hanswer t' ⟨ok, hok⟩
        simp [Answering, ht, hother]
  | push msg hcall =>
    exact h.quiet (not_answering hcall nofun) nofun rfl (List.prefix_append _ _) rfl
  | pop ok front rest hcall hqueue =>
    cases h with
    | free _ _ hanswer => exact absurd ⟨ok, hcall⟩ (hanswer t)
    | sent _ _ _ _ _ hanswer => exact absurd ⟨ok, hcall⟩ (hanswer t)
    | answered t₀ _ _ _ _ hnone hanswer =>
      obtain rfl := (hanswer t).mp ⟨ok, hcall⟩
      refine .free rfl hnone fun t' => ?_
      by_cases ht : t' = t
      · simp [Answering, ht]
      · simpa [Answering, ht] using (hanswer t').not.mpr ht
  | start front rest hcall hwriting hqueue =>
    have hafter : ∀ ok, (Call.idle : Call W) ≠ .OnWriteDone ok := nofun
    have hanswering := answering_update (world.shared.start ⟨front :: rest, true⟩ (some front))
      (not_answering hcall nofun) hafter
    cases h with
    | free _ hnone hanswer =>
      refine .sent front rest rfl rfl ?_ fun t' => (hanswering t').not.mpr (hanswer t')
      show world.shared.outstanding ++ [front] = [front]
      rw [hnone, List.nil_append]
    | sent _ _ hbusy _ _ _ => simp [hwriting] at hbusy
    | answered _ _ _ hbusy _ _ _ => simp [hwriting] at hbusy
  | leave hcall _ => exact h.quiet (not_answering hcall nofun) nofun rfl (List.prefix_refl _) rfl

theorem recorded_step (h : Recorded world.shared) (hphase : Phase world) (hstep : Stepped world t world') :
    Recorded world'.shared := by
  obtain ⟨popped, hpushed, hstarted⟩ := h
  cases hstep with
  | enterWrite msg hidle => exact ⟨popped, hpushed, hstarted⟩
  | enterDone ok front rest hidle hfront => exact ⟨popped, hpushed, hstarted⟩
  | leave hcall hbusy => exact ⟨popped, hpushed, hstarted⟩
  | push msg hcall =>
    refine ⟨popped, by simp [WithSimpleQueueWriter.push, hpushed], ?_⟩
    cases hphase with
    | free hfree _ _ => simpa [WithSimpleQueueWriter.push, hfree] using hstarted
    | sent _ _ hbusy hqueue _ _ => simpa [WithSimpleQueueWriter.push, hbusy, hqueue] using hstarted
    | answered _ _ _ hbusy hqueue _ _ => simpa [WithSimpleQueueWriter.push, hbusy, hqueue] using hstarted
  | pop ok front rest hcall hqueue =>
    cases hphase with
    | free _ _ hanswer => exact absurd ⟨ok, hcall⟩ (hanswer t)
    | sent _ _ _ _ _ hanswer => exact absurd ⟨ok, hcall⟩ (hanswer t)
    | answered _ _ _ hbusy _ _ _ =>
      refine ⟨popped ++ [front], by simp [hpushed, hqueue], ?_⟩
      simpa [hbusy, hqueue] using hstarted
  | start front rest hcall hwriting hqueue =>
    refine ⟨popped, by simpa [Stream.start, hqueue] using hpushed, ?_⟩
    simpa [Stream.start, hwriting] using hstarted

/-- A thread that owes a look at the queue is not the one that enters a call. -/
theorem nextWrite_of_idle {call : Call W} {t' : T} (hidle : world.locals t = .idle)
    (ht' : world.locals t' = .NextWrite) : Function.update world.locals t call t' = .NextWrite := by
  rw [Function.update_of_ne]
  · exact ht'
  · rintro rfl
    simp [hidle] at ht'

theorem attended_step (h : Attended world) (hstep : Stepped world t world') : Attended world' := by
  intro hwriting hqueue
  cases hstep with
  | enterWrite msg hidle =>
    obtain ⟨t', ht'⟩ := h hwriting hqueue
    exact ⟨t', nextWrite_of_idle hidle ht'⟩
  | enterDone ok front rest hidle hfront =>
    obtain ⟨t', ht'⟩ := h hwriting hqueue
    exact ⟨t', nextWrite_of_idle hidle ht'⟩
  | push msg hcall => exact ⟨t, Function.update_self ..⟩
  | pop ok front rest hcall hpopped => exact ⟨t, Function.update_self ..⟩
  | start front rest hcall _ _ => cases hwriting
  | leave hcall hbusy =>
    rcases hbusy with hbusy | hempty
    · exact absurd (hwriting.symm.trans hbusy) (by simp)
    · exact absurd hempty hqueue

theorem Inv.step (h : Inv world) (hstep : Stepped world t world') : Inv world' where
  phase := h.phase.step hstep
  recorded := recorded_step h.recorded h.phase hstep
  attended := attended_step h.attended hstep

/-- The queue is not empty when a call pops. -/
theorem Inv.pops (h : Inv world) (a : Action W) : world.step (t, a) ≠ .error .popOfEmpty := by
  intro hstop
  simp only [World.step, Threads.step, map_eq_error] at hstop
  unfold atom at hstop
  split at hstop
  · cases hstop
  · split at hstop <;> cases hstop
  · cases hstop
  · rename_i ok hcall
    cases h.phase with
    | free _ _ hanswer => exact hanswer t ⟨ok, hcall⟩
    | sent _ _ _ _ _ hanswer => exact hanswer t ⟨ok, hcall⟩
    | answered _ _ _ _ hqueue _ _ => simp [WithSimpleQueueWriter.pop, hqueue] at hstop
  · cases hstop
  · cases hstop

end Invariant

/-! ### Every interleaving -/

theorem run_inv [DecidableEq T] {acts : List (T × Action W)} {world : World T W} (h : run acts = .ok world) :
    Inv world := by
  refine foldlM_invariant (I := Inv) ?_ inv_initial h
  rintro world ⟨t, a⟩ world' hinv hstep
  exact hinv.step (stepped_of_step hstep)

/-- **Queued writes.** In every state that calls on any threads lead to, at most one write is outstanding.
What was started is a prefix of what was pushed, so messages are started in order and none twice. An
outstanding write is the last that was started, and it is the front of the queue, behind the messages that
were started before it. No call pops from an empty queue. And where no call is in progress and no write is
outstanding, the queue is empty: everything that was pushed has been started. -/
theorem queued_writes [DecidableEq T] (acts : List (T × Action W)) (world : World T W)
    (hrun : run acts = .ok world) :
    let stream := world.shared
    stream.outstanding.length ≤ 1 ∧ stream.started <+: stream.pushed ∧
      (∀ msg ∈ stream.outstanding, ∃ before, stream.started = before ++ [msg] ∧
        stream.pushed = before ++ stream.writer.mWriteQueue ∧ stream.writer.mWriteQueue.head? = some msg) ∧
      (∀ t a, world.step (t, a) ≠ .error .popOfEmpty) ∧
      ((∀ t, world.locals t = .idle) → stream.outstanding = [] →
        stream.writer.mWriteQueue = [] ∧ stream.started = stream.pushed) := by
  have hinv := run_inv hrun
  obtain ⟨popped, hpushed, hstarted⟩ := hinv.recorded
  refine ⟨?_, ?_, ?_, fun t a => hinv.pops a, ?_⟩
  · cases hinv.phase with
    | free _ hnone _ => simp [hnone]
    | sent _ _ _ _ hone _ => simp [hone]
    | answered _ _ _ _ _ hnone _ => simp [hnone]
  · rw [hstarted, hpushed]
    refine (List.prefix_append_right_inj popped).mpr ?_
    split
    · exact List.take_prefix _ _
    · exact List.nil_prefix
  · intro msg hmsg
    cases hinv.phase with
    | free _ hnone _ => simp [hnone] at hmsg
    | answered _ _ _ _ _ hnone _ => simp [hnone] at hmsg
    | sent front rest hbusy hqueue hone _ =>
      obtain rfl : msg = front := by simpa [hone] using hmsg
      exact ⟨popped, by simpa [hbusy, hqueue] using hstarted, hpushed, by simp [hqueue]⟩
  · intro hidle hnone
    have hempty : world.shared.writer.mWriteQueue = [] := by
      by_contra hqueue
      cases hinv.phase with
      | free hfree _ _ =>
        obtain ⟨t, ht⟩ := hinv.attended hfree hqueue
        simp [hidle t] at ht
      | sent _ _ _ _ hone _ => simp [hnone] at hone
      | answered t _ _ _ _ _ hanswer =>
        obtain ⟨ok, hok⟩ := (hanswer t).mpr rfl
        simp [hidle t] at hok
    exact ⟨hempty, by simpa [hempty, hpushed] using hstarted⟩

/-- Two threads write at the same time; the first write is answered in between. -/
def twoWrites : List (Bool × Action Nat) :=
  [(false, .Write 7), (true, .Write 8), (false, .locked), (false, .locked), (true, .locked),
    (false, .OnWriteDone true), (false, .locked), (true, .locked)]

theorem queued_writes_two : ∃ world, run twoWrites = .ok world ∧ world.shared.outstanding = [8] ∧
    world.shared.started <+: world.shared.pushed :=
  ⟨_, rfl, rfl, (queued_writes twoWrites _ rfl).2.1⟩

end Goldfish.Grpc
