import RdmaKVStore.PhaseCount
import RdmaKVStore.TransitionRuns

/-!
# Events for completions

`process_work_completion_events` with `blocking` set and `max_wc` 1, as called
by any number of workers on one completion queue.  A completion that enters an
armed queue raises one event and disarms the queue; one that enters while the
queue is disarmed raises none, and arming does not make up for it.  Each call
takes one event and one completion, so the completions that came in silently
are left over when all workers wait.
-/

namespace RdmaKVStore

variable {Worker : Type*}

/-- A completion queue with its channel: whether it is armed, the events not
yet taken, the completions not yet polled, and how many completions have raised
no event. -/
structure CompletionChannel where
  armed : Bool
  events : Nat
  completions : Nat
  silent : Nat

/-- What a worker does next: other work, `ibv_get_cq_event`,
`ibv_req_notify_cq`, or the polling loop. -/
inductive EventPhase
  | outside
  | getCqEvent
  | reqNotify
  | poll
  deriving DecidableEq

namespace CompletionChannel

/-- A queue on which the set-up has asked for notifications. -/
def initial : CompletionChannel where
  armed := true
  events := 0
  completions := 0
  silent := 0

variable (channel : CompletionChannel)

def arrive : CompletionChannel :=
  if channel.armed then
    { channel with
      armed := false
      events := channel.events + 1
      completions := channel.completions + 1 }
  else
    { channel with
      completions := channel.completions + 1
      silent := channel.silent + 1 }

/-- The next step of a worker; `none` while it waits for an event. -/
def advance : EventPhase → Option (CompletionChannel × EventPhase)
  | .outside => some (channel, .getCqEvent)
  | .getCqEvent =>
      if 0 < channel.events then
        some ({ channel with events := channel.events - 1 }, .reqNotify)
      else none
  | .reqNotify => some ({ channel with armed := true }, .poll)
  | .poll =>
      if 0 < channel.completions then
        some ({ channel with completions := channel.completions - 1 },
          .outside)
      else some (channel, .poll)

theorem silent_of_advance {channel after : CompletionChannel}
    {phase next : EventPhase}
    (advanced : channel.advance phase = some (after, next)) :
    after.silent = channel.silent := by
  cases phase with
  | outside | reqNotify =>
      cases advanced
      rfl
  | getCqEvent =>
      obtain ⟨-, same⟩ := Option.ite_none_right_eq_some.mp advanced
      cases same
      rfl
  | poll =>
      simp only [advance] at advanced
      split at advanced <;> cases advanced <;> rfl

end CompletionChannel

structure ChannelState (Worker : Type*) where
  channel : CompletionChannel
  phase : Worker → EventPhase

inductive ChannelLabel (Worker : Type*)
  | arrive
  | work (worker : Worker)

def ChannelState.initial : ChannelState Worker where
  channel := .initial
  phase _ := .outside

/-- The workers that share a completion queue in blocking mode. -/
def blockingWorkers (Worker : Type*) [DecidableEq Worker] :
    TransitionSystem (ChannelState Worker) (ChannelLabel Worker) where
  initial state := state = .initial
  step state
    | .arrive => some { state with channel := state.channel.arrive }
    | .work worker =>
        (state.channel.advance (state.phase worker)).map
          fun (channel, phase) =>
            { channel := channel
              phase := Function.update state.phase worker phase }

/-- A completion lies in the queue, no event is pending, and all workers wait
for one. -/
structure Stranded (state : ChannelState Worker) : Prop where
  completion : 0 < state.channel.completions
  noEvent : state.channel.events = 0
  waiting : ∀ worker, state.phase worker = .getCqEvent

/-- No completion enters the queue while it is disarmed. -/
def ArrivesArmed (state : ChannelState Worker) : ChannelLabel Worker → Prop
  | .arrive => state.channel.armed = true
  | .work _ => True

instance (state : ChannelState Worker) (label : ChannelLabel Worker) :
    Decidable (ArrivesArmed state label) :=
  match label with
  | .arrive => inferInstanceAs (Decidable (state.channel.armed = true))
  | .work _ => isTrue trivial

def EventPhase.Notified : EventPhase → Prop
  | .reqNotify | .poll => True
  | .outside | .getCqEvent => False

/-- Every completion in the queue is one that an event announces, one that a
notified worker is going to poll, or one that came in silently. -/
def Announced (state : ChannelState Worker) : Prop :=
  ∃ notified, PhaseCount EventPhase.Notified state.phase notified ∧
    state.channel.completions =
      state.channel.events + notified + state.channel.silent

theorem Announced.initial :
    Announced (.initial : ChannelState Worker) :=
  ⟨0, .zero fun _ => id, rfl⟩

theorem Announced.arrive {state : ChannelState Worker}
    (announced : Announced state) :
    Announced { state with channel := state.channel.arrive } := by
  obtain ⟨notified, counted, balance⟩ := announced
  refine ⟨notified, counted, ?_⟩
  unfold CompletionChannel.arrive
  split <;> simp only <;> omega

variable [DecidableEq Worker]

theorem Announced.advance {state : ChannelState Worker} {worker : Worker}
    {channel : CompletionChannel} {next : EventPhase}
    (announced : Announced state)
    (advanced : state.channel.advance (state.phase worker) =
      some (channel, next)) :
    Announced ⟨channel, Function.update state.phase worker next⟩ := by
  obtain ⟨notified, counted, balance⟩ := announced
  cases place : state.phase worker with
  | outside =>
      rw [place] at advanced
      cases advanced
      exact ⟨notified, counted.stay (by rw [place]; rfl), balance⟩
  | getCqEvent =>
      rw [place] at advanced
      obtain ⟨pending, same⟩ := Option.ite_none_right_eq_some.mp advanced
      cases same
      refine ⟨notified + 1, counted.enter trivial (by rw [place]; exact id), ?_⟩
      simp only
      omega
  | reqNotify =>
      rw [place] at advanced
      cases advanced
      exact ⟨notified, counted.stay (by rw [place]; rfl), balance⟩
  | poll =>
      rw [place] at advanced
      have here : (state.phase worker).Notified := by rw [place]; trivial
      obtain ⟨others, rfl⟩ := Nat.exists_eq_add_of_le' (counted.pos here)
      simp only [CompletionChannel.advance] at advanced
      -- The completion of a notified worker is still there.
      rw [if_pos (by omega)] at advanced
      cases advanced
      refine ⟨others, counted.leave id here, ?_⟩
      simp only
      omega

theorem Announced.step {state after : ChannelState Worker}
    {label : ChannelLabel Worker} (announced : Announced state)
    (stepTo : (blockingWorkers Worker).step state label = some after) :
    Announced after := by
  cases label with
  | arrive =>
      cases stepTo
      exact announced.arrive
  | work worker =>
      obtain ⟨⟨channel, next⟩, advanced, rfl⟩ :=
        Option.map_eq_some_iff.mp stepTo
      exact announced.advance advanced

omit [DecidableEq Worker] in
/-- When no event is pending and all workers wait, just the silent completions
are left. -/
theorem Announced.completions_eq_silent {state : ChannelState Worker}
    (announced : Announced state) (noEvent : state.channel.events = 0)
    (waiting : ∀ worker, state.phase worker = .getCqEvent) :
    state.channel.completions = state.channel.silent := by
  obtain ⟨notified, counted, balance⟩ := announced
  have none : notified = 0 := counted.eq_zero fun worker here => by
    rw [waiting worker] at here
    exact here
  omega

/-- In every run, a state in which all workers wait and no event is pending is
stranded exactly if some completion has entered the queue silently. -/
theorem stranded_iff_silent {state : ChannelState Worker}
    (reached : (blockingWorkers Worker).Reachable state)
    (noEvent : state.channel.events = 0)
    (waiting : ∀ worker, state.phase worker = .getCqEvent) :
    Stranded state ↔ 0 < state.channel.silent := by
  have announced : Announced state := reached.invariant
    (fun _ initial => initial ▸ Announced.initial)
    fun _ _ _ announced stepTo => announced.step stepTo
  rw [← announced.completions_eq_silent noEvent waiting]
  exact ⟨Stranded.completion, fun some => ⟨some, noEvent, waiting⟩⟩

theorem silent_eq_zero {state : ChannelState Worker}
    (reached : (blockingWorkers Worker).GuardedReach ArrivesArmed state) :
    state.channel.silent = 0 := by
  induction reached with
  | start initial =>
      obtain rfl := initial
      rfl
  | @next before after label _ armed stepTo ih =>
      cases label with
      | arrive =>
          cases stepTo
          have isArmed : before.channel.armed = true := armed
          simpa only [CompletionChannel.arrive, isArmed, if_true] using ih
      | work worker =>
          obtain ⟨⟨channel, next⟩, advanced, rfl⟩ :=
            Option.map_eq_some_iff.mp stepTo
          exact (CompletionChannel.silent_of_advance advanced).trans ih

/-- In every run of any number of workers in which all completions enter an
armed queue, none is ever stranded. -/
theorem not_stranded_of_arrivesArmed {state : ChannelState Worker}
    (reached : (blockingWorkers Worker).GuardedReach ArrivesArmed state) :
    ¬ Stranded state := by
  intro stranded
  have silent := (stranded_iff_silent reached.reachable stranded.noEvent
    stranded.waiting).mp stranded
  rw [silent_eq_zero reached] at silent
  exact absurd silent (lt_irrefl 0)

/-- Two workers wait, and each of two completions comes in while the queue is
armed. -/
def servedLabels : List (ChannelLabel (Fin 2)) :=
  [.work 0, .work 1, .arrive, .work 1, .work 1, .arrive, .work 0, .work 0,
    .work 1, .work 0, .work 1, .work 0]

theorem not_stranded_after_servedLabels :
    ∃ state, (blockingWorkers (Fin 2)).run .initial servedLabels =
        some state ∧
      (∀ worker, state.phase worker = .getCqEvent) ∧ ¬ Stranded state := by
  obtain ⟨state, runTo, waiting⟩ := Option.map_eq_some_iff.mp
    (show ((blockingWorkers (Fin 2)).run .initial servedLabels).map
        (fun state => (state.phase 0, state.phase 1)) =
      some (.getCqEvent, .getCqEvent) by decide)
  simp only [Prod.mk.injEq] at waiting
  exact ⟨state, runTo, Fin.forall_fin_two.mpr waiting,
    not_stranded_of_arrivesArmed (TransitionSystem.guardedReach_of_run
      (.start rfl) (show (blockingWorkers (Fin 2)).RunGuarded ArrivesArmed
        .initial servedLabels by decide) runTo)⟩

/-- One worker waits for the completion of its response.  The next request
comes in before it asks for further notifications. -/
def strandingLabels : List (ChannelLabel Unit) :=
  [.work (), .arrive, .work (), .arrive, .work (), .work (), .work ()]

theorem strandingLabels_strands :
    ∃ state, (blockingWorkers Unit).Reachable state ∧ Stranded state := by
  obtain ⟨state, runTo, checked⟩ := Option.map_eq_some_iff.mp
    (show ((blockingWorkers Unit).run .initial strandingLabels).map
        (fun state => (state.channel.completions, state.channel.events,
          state.phase ())) = some (1, 0, .getCqEvent) by decide)
  simp only [Prod.mk.injEq] at checked
  obtain ⟨completions, events, waiting⟩ := checked
  exact ⟨state, TransitionSystem.reachable_of_run (.start rfl) runTo,
    by omega, events, fun _ => waiting⟩

end RdmaKVStore
