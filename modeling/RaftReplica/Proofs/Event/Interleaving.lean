import RaftReplica.Proofs.Event.Regroup

/-!
# The aggregating loop while its pipe is being fed

Senders may put events into the pipe between any two things that the loop does, also while it puts a batch
together.  `Stage` says what the loop is about to do, and `act` does it: it takes one event out of the pipe,
or has one handled.

* `iterate_act` says that the stages make up the rounds of the loop.
* `Scene` adds the senders, and `Move` is what loop and senders do.
* `InOrder.move` says what one move keeps, and `inOrder_play` that it holds after any moves.
* `aggregating_in_order` sums up: in whatever order things happen, events are handled in the order in which
  the pipe accepted them, and a queue that is complete is handled in batches.
-/

namespace RaftReplica

namespace Pipe

variable {ε : Type} {pipe next : Pipe ε}

theorem of_tryWeakSend {event : ε} (h : pipe.tryWeakSend event = .ok next) :
    pipe.isOver = false ∧ next.queue = pipe.queue ++ [event] := by
  unfold tryWeakSend at h
  split at h
  · cases h
  · refine ⟨?_, queue_of_trySend h⟩
    cases hclosed : pipe.closed with
    | true => rw [(trySend_eq_closed_iff pipe event).mpr hclosed] at h; cases h
    | false => simpa [isOver, hclosed]

theorem of_upgrade? (h : pipe.upgrade? = some next) :
    next.queue = pipe.queue ∧ next.isOver = pipe.isOver := by
  unfold upgrade? at h
  split at h
  · cases h
  · cases h
    exact ⟨rfl, by simp_all [isOver, addSender]⟩

theorem isOver_dropSender (h : pipe.isOver = true) : pipe.dropSender.isOver = true := by
  simp only [isOver, dropSender, Bool.or_eq_true, beq_iff_eq] at h ⊢
  exact h.imp_right fun hnone => by omega

end Pipe

namespace Loop

variable {σ ε : Type}

/-! ## Stages -/

/-- What the aggregating loop is about to do. -/
inductive Stage (ε : Type) where
  /-- To wait for an event. -/
  | receiving
  /-- To add to a batch what is in the pipe by now. -/
  | gathering (batch : List WriteAhead)
  /-- To have an event handled, and perhaps another one behind it. -/
  | handing (event : Event) (next : Option Event)
  | ended (result : Except ε Unit)

namespace Stage

/-- The events that the loop has taken out of the pipe and not had handled yet. -/
def hand : Stage ε → List Event
  | receiving => []
  | gathering batch => batch.map .writeAhead
  | handing event next => event :: next.toList
  | ended _ => []

/-- Where a round leaves the loop. -/
def after : Status ε → Stage ε
  | .closed => ended (.ok ())
  | .waiting => receiving
  | .failed error => ended (.error error)
  | .busy => receiving

end Stage

/-- Does what the loop is about to do. -/
def act (handler : Handler σ ε) : Stage ε × Feed σ → Stage ε × Feed σ
  | (.receiving, feed) =>
    match feed.pipe.receive with
    | (.closed, _) => (.ended (.ok ()), feed)
    | (.pending, _) => (.receiving, feed)
    | (.item (.writeAhead write), pipe) => (.gathering [write], { feed with pipe })
    | (.item event, pipe) => (.handing event none, { feed with pipe })
  | (.gathering batch, feed) =>
    match feed.pipe.tryReceive with
    | (none, _) => (.handing (.ofBatch batch) none, feed)
    | (some (.writeAhead write), pipe) =>
      let batch := batch ++ [write]
      if maxAggregation < batch.length then (.handing (.ofBatch batch) none, { feed with pipe })
      else (.gathering batch, { feed with pipe })
    | (some event, pipe) => (.handing (.ofBatch batch) (some event), { feed with pipe })
  | (.handing event next, feed) =>
    match handler feed event with
    | (feed, .ok ()) =>
      (match next with | some event => .handing event none | none => .receiving, feed)
    | (feed, .error error) => (.ended (.error error), feed)
  | (.ended result, feed) => (.ended result, feed)

/-! ## What one stage does -/

variable {handler : Handler σ ε} {feed : Feed σ} {event : Event} {queue : List Event}

theorem act_receiving_nil (h : feed.pipe.queue = []) :
    act handler (.receiving, feed) =
      (Stage.after (if feed.pipe.isOver then .closed else .waiting), feed) := by
  have hreceive : feed.pipe.receive = (if feed.pipe.isOver then .closed else .pending, feed.pipe) := by
    simp [Pipe.receive, h]
  cases hover : feed.pipe.isOver <;> simp [act, hreceive, hover, Stage.after]

theorem act_receiving_writeAhead {write : WriteAhead} (h : feed.pipe.queue = .writeAhead write :: queue) :
    act handler (.receiving, feed) = (.gathering [write], feed.leaving queue) := by
  have hreceive : feed.pipe.receive = (.item (.writeAhead write), { feed.pipe with queue }) := by
    simp [Pipe.receive, h]
  simp only [act, hreceive, Feed.leaving]

theorem act_receiving_interrupts (hevent : event.Interrupts) (h : feed.pipe.queue = event :: queue) :
    act handler (.receiving, feed) = (.handing event none, feed.leaving queue) := by
  have hreceive : feed.pipe.receive = (.item event, { feed.pipe with queue }) := by
    simp [Pipe.receive, h]
  cases event with
  | writeAhead write => exact absurd rfl (hevent write)
  | error | aggregatedWriteAhead | heartbeatTimeout | electionTimeout | voteRequest | voteReply
    | appendRequest | appendReply => simp only [act, hreceive, Feed.leaving]

theorem act_gathering_nil (batch : List WriteAhead) (h : feed.pipe.queue = []) :
    act handler (.gathering batch, feed) = (.handing (.ofBatch batch) none, feed) := by
  have hreceive : feed.pipe.tryReceive = (none, feed.pipe) := by simp [Pipe.tryReceive, h]
  simp only [act, hreceive]

theorem act_gathering_writeAhead (batch : List WriteAhead) {write : WriteAhead}
    (h : feed.pipe.queue = .writeAhead write :: queue) :
    act handler (.gathering batch, feed) =
      (if maxAggregation < (batch ++ [write]).length then .handing (.ofBatch (batch ++ [write])) none
        else .gathering (batch ++ [write]), feed.leaving queue) := by
  have hreceive : feed.pipe.tryReceive = (some (.writeAhead write), { feed.pipe with queue }) := by
    simp [Pipe.tryReceive, h]
  simp only [act, hreceive, Feed.leaving]
  split <;> rfl

theorem act_gathering_interrupts (batch : List WriteAhead) (hevent : event.Interrupts)
    (h : feed.pipe.queue = event :: queue) :
    act handler (.gathering batch, feed) =
      (.handing (.ofBatch batch) (some event), feed.leaving queue) := by
  have hreceive : feed.pipe.tryReceive = (some event, { feed.pipe with queue }) := by
    simp [Pipe.tryReceive, h]
  cases event with
  | writeAhead write => exact absurd rfl (hevent write)
  | error | aggregatedWriteAhead | heartbeatTimeout | electionTimeout | voteRequest | voteReply
    | appendRequest | appendReply => simp only [act, hreceive, Feed.leaving]

theorem act_handing_of_ok (next : Option Event) (h : (handler feed event).2 = .ok ()) :
    act handler (.handing event next, feed) =
      (match next with | some event => .handing event none | none => .receiving,
        (handler feed event).1) := by
  simp only [act]
  rw [← Prod.eta (handler feed event), h]

/-! ## Stages make up rounds -/

/-- What the loop gets to by doing one thing after the other. -/
inductive Reaches (handler : Handler σ ε) : Stage ε × Feed σ → Stage ε × Feed σ → Prop
  | refl (stage) : Reaches handler stage stage
  | act {stage final} : Reaches handler (act handler stage) final → Reaches handler stage final

theorem Reaches.trans {first second third : Stage ε × Feed σ} (h : Reaches handler first second)
    (h' : Reaches handler second third) : Reaches handler first third := by
  induction h with
  | refl => exact h'
  | act _ ih => exact .act (ih h')

/-- A batch takes what is drained off the queue. -/
theorem reaches_gathering (room : Nat) (queue : List Event) :
    ∀ (batch : List WriteAhead) (feed : Feed σ), batch.length + room = batchSize → 0 < room →
      feed.pipe.queue = queue →
      Reaches handler (.gathering batch, feed)
        (.handing (.ofBatch (batch ++ (drain room queue).batch)) (drain room queue).interruptedBy,
          feed.leaving (drain room queue).rest) := by
  fun_induction drain room queue with
  | case1 queue => intro _ _ _ hpos; exact absurd hpos (Nat.lt_irrefl 0)
  | case2 room =>
    intro batch feed hroom hpos hqueue
    apply Reaches.act
    rw [act_gathering_nil batch hqueue, List.append_nil, ← hqueue]
    exact .refl _
  | case3 room write queue drained ih =>
    intro batch feed hroom hpos hqueue
    have hlonger : (batch ++ [write]).length + room = batchSize := by
      rw [List.length_append, List.length_singleton, Nat.add_assoc, Nat.add_comm 1]
      exact hroom
    have hassoc : batch ++ write :: drained.batch = batch ++ [write] ++ drained.batch := by simp
    apply Reaches.act
    rw [act_gathering_writeAhead batch hqueue, hassoc]
    by_cases hfull : maxAggregation < (batch ++ [write]).length
    · obtain rfl : room = 0 := by unfold batchSize at hlonger; omega
      rw [if_pos hfull]
      show Reaches handler _ (.handing (.ofBatch (batch ++ [write] ++ [])) none, _)
      rw [List.append_nil]
      exact .refl _
    · rw [if_neg hfull]
      exact ih (batch ++ [write]) (feed.leaving queue) hlonger
        (by unfold batchSize at hlonger; omega) rfl
  | case4 room event queue hevent =>
    intro batch feed hroom hpos hqueue
    apply Reaches.act
    rw [act_gathering_interrupts batch hevent hqueue, List.append_nil]
    exact .refl _

theorem reaches_handing_alone (feed : Feed σ) (event : Event) :
    Reaches handler (.handing event none, feed)
      (.after (deliver handler feed event).2, (deliver handler feed event).1) := by
  apply Reaches.act
  simp only [act, deliver]
  cases handler feed event with
  | mk feed result => cases result <;> exact .refl _

theorem reaches_handing (feed : Feed σ) (event : Event) (next : Option Event) :
    Reaches handler (.handing event next, feed)
      (.after (deliverAll handler feed (event :: next.toList)).2,
        (deliverAll handler feed (event :: next.toList)).1) := by
  cases next with
  | none =>
    rw [Option.toList_none, deliverAll_singleton]
    exact reaches_handing_alone feed event
  | some next =>
    apply Reaches.act
    simp only [act, deliverAll, deliver]
    cases handler feed event with
    | mk feed result =>
      cases result with
      | ok =>
        show Reaches handler (.handing next none, feed)
          (.after (deliverAll handler feed [next]).2, (deliverAll handler feed [next]).1)
        rw [deliverAll_singleton]
        exact reaches_handing_alone feed next
      | error => exact .refl _

/-- Stage by stage the loop does what it does in a round. -/
theorem reaches_step (handler : Handler σ ε) (feed : Feed σ) :
    Reaches handler (.receiving, feed)
      (.after (step true handler feed).2, (step true handler feed).1) := by
  rw [step_eq]
  cases hqueue : feed.pipe.queue with
  | nil =>
    apply Reaches.act
    rw [act_receiving_nil hqueue]
    exact .refl _
  | cons event queue =>
    apply Reaches.act
    obtain hevent | ⟨write, rfl⟩ := event.interrupts_or
    · rw [act_receiving_interrupts hevent hqueue, portion?_of_interrupts true hevent]
      exact reaches_handing (feed.leaving queue) event none
    · rw [act_receiving_writeAhead hqueue]
      have hgathered : Reaches handler _ _ :=
        reaches_gathering maxAggregation queue [write] (feed.leaving queue) (Nat.add_comm ..)
          (Nat.succ_pos _) rfl
      exact hgathered.trans (reaches_handing ..)

/-! ## Scenes -/

/-- The loop at one of its stages, and the pipe. -/
structure Scene (σ ε : Type) where
  stage : Stage ε
  feed : Feed (Noted σ ε)

/-- What may happen next. -/
inductive Move where
  /-- The loop does what it is about to do. -/
  | act
  /-- Somebody sends an event, which the pipe takes or not. -/
  | send (event : Event)
  | addSender
  | dropSender

namespace Scene

/-- Before the first round. -/
def start (feed : Feed σ) : Scene σ ε := ⟨.receiving, feed.noted⟩

def move (handler : Handler σ ε) (scene : Scene σ ε) : Move → Scene σ ε
  | .act =>
    let (stage, feed) := Loop.act handler.noting (scene.stage, scene.feed)
    ⟨stage, feed⟩
  | .send event =>
    match scene.feed.pipe.tryWeakSend event with
    | .ok pipe =>
      let noted := { scene.feed.state with accepted := scene.feed.state.accepted ++ [event] }
      { scene with feed := ⟨noted, pipe⟩ }
    | .error _ => scene
  | .addSender =>
    match scene.feed.pipe.upgrade? with
    | some pipe => { scene with feed := { scene.feed with pipe } }
    | none => scene
  | .dropSender => { scene with feed := { scene.feed with pipe := scene.feed.pipe.dropSender } }

/-- What there is after the moves. -/
def play (handler : Handler σ ε) (scene : Scene σ ε) (moves : List Move) : Scene σ ε :=
  moves.foldl (move handler) scene

end Scene

/-- Nothing got lost, doubled or out of order, and the loop has not ended before its pipe. -/
structure InOrder (queue : List Event) (scene : Scene σ ε) : Prop where
  accounted : Accounted queue scene.feed scene.stage.hand
  ended : ∀ result, scene.stage = .ended result →
    result = .ok () ∧ scene.feed.pipe.queue = [] ∧ scene.feed.pipe.isOver = true

/-! ## What a move keeps -/

namespace InOrder

variable {scene : Scene σ ε} {feed : Feed (Noted σ ε)}

theorem going {stage : Stage ε} {feed : Feed (Noted σ ε)} {hand : List Event}
    (haccounted : Accounted queue feed hand)
    (hhand : Event.expandAll hand = Event.expandAll stage.hand)
    (hgoing : ∀ result, stage ≠ .ended result) : InOrder queue ⟨stage, feed⟩ :=
  ⟨haccounted.batched hhand, fun result hended => absurd hended (hgoing result)⟩

theorem receive (h : InOrder queue ⟨.receiving, feed⟩) :
    InOrder queue (Scene.move handler ⟨.receiving, feed⟩ .act) := by
  show InOrder queue ⟨(act handler.noting (.receiving, feed)).1, (act handler.noting (.receiving, feed)).2⟩
  cases hqueue : feed.pipe.queue with
  | nil =>
    rw [act_receiving_nil hqueue]
    cases hover : feed.pipe.isOver with
    | true => exact ⟨h.accounted, fun result hended => by cases hended; exact ⟨rfl, hqueue, hover⟩⟩
    | false => exact h
  | cons event rest =>
    have htaken : Accounted queue (feed.leaving rest) [event] := h.accounted.take hqueue
    obtain hevent | ⟨write, rfl⟩ := event.interrupts_or
    · rw [act_receiving_interrupts hevent hqueue]
      exact going htaken rfl nofun
    · rw [act_receiving_writeAhead hqueue]
      exact going htaken rfl nofun

theorem gather {batch : List WriteAhead} (h : InOrder queue ⟨.gathering batch, feed⟩) :
    InOrder queue (Scene.move handler ⟨.gathering batch, feed⟩ .act) := by
  show InOrder queue
    ⟨(act handler.noting (.gathering batch, feed)).1, (act handler.noting (.gathering batch, feed)).2⟩
  cases hqueue : feed.pipe.queue with
  | nil =>
    rw [act_gathering_nil batch hqueue]
    exact going h.accounted (by simp [Stage.hand]) nofun
  | cons event rest =>
    have htaken : Accounted queue (feed.leaving rest) (batch.map .writeAhead ++ [event]) :=
      h.accounted.take hqueue
    obtain hevent | ⟨write, rfl⟩ := event.interrupts_or
    · rw [act_gathering_interrupts batch hevent hqueue]
      exact going htaken (by simp [Stage.hand]) nofun
    · rw [act_gathering_writeAhead batch hqueue]
      dsimp only
      split
      · exact going htaken (by simp [Stage.hand]) nofun
      · exact going htaken (by simp [Stage.hand]) nofun

theorem handle (hobliging : Obliging handler) {event : Event} {next : Option Event}
    (h : InOrder queue ⟨.handing event next, feed⟩) :
    InOrder queue (Scene.move handler ⟨.handing event next, feed⟩ .act) := by
  show InOrder queue
    ⟨(act handler.noting (.handing event next, feed)).1, (act handler.noting (.handing event next, feed)).2⟩
  have hok : (handler.noting feed event).2 = .ok () := hobliging.succeeds feed.plain event
  have hhandled : Accounted queue (handler.noting feed event).1 next.toList :=
    accounted_noting hobliging.appends h.accounted
  rw [act_handing_of_ok next hok]
  cases next with
  | none => exact going hhandled rfl nofun
  | some next => exact going hhandled rfl nofun

/-- What somebody sends is accepted behind everything else, if it is accepted. -/
theorem send (h : InOrder queue scene) (event : Event) :
    InOrder queue (scene.move handler (.send event)) := by
  unfold Scene.move
  dsimp only
  cases hsend : scene.feed.pipe.tryWeakSend event with
  | error => exact h
  | ok pipe =>
    obtain ⟨hover, hqueue⟩ := Pipe.of_tryWeakSend hsend
    obtain ⟨⟨hgrown, taken, haccepted, hexpand⟩, hended⟩ := h
    refine ⟨⟨hgrown.trans (List.prefix_append ..), taken, ?_, hexpand⟩, ?_⟩
    · show scene.feed.state.accepted ++ [event] = taken ++ pipe.queue
      rw [haccepted, hqueue, List.append_assoc]
    · intro result hresult
      rw [(hended result hresult).2.2] at hover
      cases hover

/-- Senders that come and go leave the queue alone, and the pipe ended if it has ended. -/
theorem withPipe (h : InOrder queue scene) {pipe : Pipe Event}
    (hqueue : pipe.queue = scene.feed.pipe.queue)
    (hover : scene.feed.pipe.isOver = true → pipe.isOver = true) :
    InOrder queue { scene with feed := { scene.feed with pipe } } := by
  obtain ⟨⟨hgrown, taken, haccepted, hexpand⟩, hended⟩ := h
  refine ⟨⟨hgrown, taken, ?_, hexpand⟩, ?_⟩
  · rw [haccepted, hqueue]
  · intro result hresult
    obtain ⟨hok, hempty, hover'⟩ := hended result hresult
    exact ⟨hok, hqueue.trans hempty, hover hover'⟩

theorem move (hobliging : Obliging handler) (h : InOrder queue scene) (move : Move) :
    InOrder queue (scene.move handler move) := by
  cases move with
  | act =>
    obtain ⟨stage, feed⟩ := scene
    cases stage with
    | receiving => exact h.receive
    | gathering => exact h.gather
    | handing => exact h.handle hobliging
    | ended => exact h
  | send event => exact h.send event
  | addSender =>
    unfold Scene.move
    dsimp only
    cases hupgrade : scene.feed.pipe.upgrade? with
    | none => exact h
    | some pipe =>
      obtain ⟨hqueue, hover⟩ := Pipe.of_upgrade? hupgrade
      exact h.withPipe hqueue (hover ▸ id)
  | dropSender => exact h.withPipe rfl Pipe.isOver_dropSender

end InOrder

theorem inOrder_play (hobliging : Obliging handler) {scene : Scene σ ε} (h : InOrder queue scene)
    (moves : List Move) : InOrder queue (scene.play handler moves) := by
  induction moves generalizing scene with
  | nil => exact h
  | cons move moves ih => exact ih (h.move hobliging move)

theorem inOrder_start (feed : Feed σ) : InOrder feed.pipe.queue (Scene.start (ε := ε) feed) :=
  ⟨accounted_noted feed, nofun⟩

/-- The aggregating loop has events handled in the order in which the pipe accepted them, each once,
whatever is sent while it takes events out, puts batches together and has them handled.  A queue that is
complete before a pipe that has ended is handled with its write-aheads in batches, and the loop ends with
the pipe. -/
theorem aggregating_in_order (hobliging : Obliging handler) (feed : Feed σ) :
    (∀ moves, InOrder feed.pipe.queue ((Scene.start feed).play handler moves)) ∧
    (∀ noted, Reaches handler.noting (.receiving, noted)
      (.after (step true handler.noting noted).2, (step true handler.noting noted).1)) ∧
    (feed.pipe.isOver = true → ∀ rounds, feed.pipe.queue.length < rounds →
      let outcome := run true handler.noting rounds feed.noted
      run true handler rounds feed = (outcome.1.plain, .closed) ∧
      outcome.1.pipe.queue = [] ∧ outcome.1.state.handled = regroup feed.pipe.queue) := by
  refine ⟨inOrder_play hobliging (inOrder_start feed), reaches_step handler.noting, ?_⟩
  intro hover rounds hrounds
  have hnoted : (feed.noted : Feed (Noted σ ε)).pipe.isOver = true := hover
  obtain ⟨hclosed, hempty, hhandled⟩ := run_regroup hobliging rounds hrounds hnoted
  refine ⟨?_, hempty, hhandled⟩
  have hrun := run_noting true handler rounds feed.noted
  rw [hclosed] at hrun
  exact hrun

/-! ## A handler that feeds the pipe -/

/-- Has a heartbeat timeout follow every election timeout, if the pipe takes it. -/
def relay : Handler Unit String := fun feed event =>
  match event, feed.pipe.tryWeakSend .heartbeatTimeout with
  | .electionTimeout, .ok pipe => ({ feed with pipe }, .ok ())
  | _, _ => (feed, .ok ())

theorem obliging_relay : Obliging relay := by
  refine ⟨?_, ?_, ?_⟩
  · intro feed event
    unfold relay
    split
    · exact ⟨_, (Pipe.of_tryWeakSend ‹_›).2.symm⟩
    · exact List.prefix_rfl
  · intro feed event
    unfold relay
    split <;> rfl
  · intro feed event hover
    unfold relay
    split
    · rw [(Pipe.of_tryWeakSend ‹_›).1] at hover
      cases hover
    · exact ⟨hover, rfl⟩

/-- Three write-aheads and an election timeout, with so many senders left. -/
def burst (senders : Nat) : Feed Unit :=
  ⟨(), ⟨8, [.writeAhead ⟨[1], none⟩, .writeAhead ⟨[2], none⟩, .electionTimeout, .writeAhead ⟨[3], none⟩],
    senders, false⟩⟩

/-- A write-ahead that is sent while a batch is put together; and what is handled if nobody is left to send
anything. -/
theorem aggregating_in_order_burst :
    InOrder (burst 1).pipe.queue
      ((Scene.start (burst 1)).play relay [.act, .act, .send (.writeAhead ⟨[4], none⟩), .act, .act]) ∧
    (run true relay.noting 5 (burst 0).noted).1.state.handled =
      [.aggregatedWriteAhead [⟨[1], none⟩, ⟨[2], none⟩], .electionTimeout, .writeAhead ⟨[3], none⟩] :=
  ⟨(aggregating_in_order obliging_relay (burst 1)).1 _,
    ((aggregating_in_order obliging_relay (burst 0)).2.2 rfl 5 (by decide)).2.2.trans (by decide)⟩

end Loop

end RaftReplica
