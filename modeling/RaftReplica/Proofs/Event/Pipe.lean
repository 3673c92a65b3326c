import Mathlib.Data.List.Induction
import RaftReplica.Pipe

/-!
# What a pipe keeps to

Many senders share a pipe: the one it was made with, clones of it, and weak senders, which may be made
strong again for as long as a strong one is left.  Each of them may be dropped at any time, the receiver
may close the pipe or be dropped as well, and all of this may happen in any order.  A send that would have
to wait for room is given up at once.

* `Operation` is what can be done to a pipe, `Usage` a pipe with those who hold an end of it and with the
  record of what has been done so far, and `Usage.perform` does one more thing.
* `accepted` and `received` read off the record which events went in and which came out.
* `Does` lists what an operation can do to queue and receiver, and `does_step` says that there is nothing
  else.
* `Counted` says that senders are told apart and counted right, and `Sound` what else holds of a pipe in
  use.  `Sound.step` says that every operation keeps it so, and `sound_run` that it always holds.
* `Usage.run_keeps_contract` sums up what senders and receiver may rely on.
-/

namespace RaftReplica

namespace Pipe

variable {ε : Type} {pipe next : Pipe ε} {event : ε}

/-! ## Sending -/

/-- An event goes in at the end, and only if there is room. -/
theorem of_trySend (h : pipe.trySend event = .ok next) :
    next = { pipe with queue := pipe.queue ++ [event] } ∧ pipe.closed = false ∧
      pipe.queue.length < pipe.capacity := by
  cases hclosed : pipe.closed with
  | true => simp [trySend, hclosed] at h
  | false =>
    by_cases hfull : pipe.capacity ≤ pipe.queue.length
    · simp [trySend, isFull, hclosed, hfull] at h
    · simp only [trySend, isFull, hclosed, hfull, decide_false, Bool.false_eq_true, if_false,
        Except.ok.injEq] at h
      exact ⟨h.symm, rfl, Nat.lt_of_not_le hfull⟩

/-- A weak send is a send through a sender that is made strong for it and dropped again. -/
theorem tryWeakSend_eq (pipe : Pipe ε) (event : ε) : pipe.tryWeakSend event =
    match pipe.upgrade? with
    | none => .error .closed
    | some held => (held.trySend event).map dropSender := by
  unfold tryWeakSend upgrade?
  by_cases hnone : pipe.senders = 0
  · simp only [hnone, if_true]
  · cases hclosed : pipe.closed <;> by_cases hfull : pipe.capacity ≤ pipe.queue.length <;>
      simp [hnone, trySend, addSender, dropSender, isFull, hclosed, hfull, Except.map]

theorem trySend_of_tryWeakSend (h : pipe.tryWeakSend event = .ok next) :
    pipe.trySend event = .ok next := by
  unfold tryWeakSend at h
  split at h
  · cases h
  · exact h

theorem tryWeakSend_eq_closed_iff (pipe : Pipe ε) (event : ε) :
    pipe.tryWeakSend event = .error .closed ↔ pipe.senders = 0 ∨ pipe.closed = true := by
  unfold tryWeakSend
  by_cases hnone : pipe.senders = 0
  · simp [hnone]
  · simp [hnone, trySend_eq_closed_iff]

theorem tryWeakSend_eq_full_iff (pipe : Pipe ε) (event : ε) :
    pipe.tryWeakSend event = .error .full ↔
      pipe.senders ≠ 0 ∧ pipe.closed = false ∧ pipe.capacity ≤ pipe.queue.length := by
  unfold tryWeakSend
  by_cases hnone : pipe.senders = 0
  · simp [hnone]
  · simp [hnone, trySend_eq_full_iff]

/-! ## Operations -/

/-- What can be done to a pipe.  Those who send go by numbers. -/
inductive Operation (ε : Type) where
  | send (sender : Nat) (event : ε)
  | trySend (sender : Nat) (event : ε)
  | weakSend (weak : Nat) (event : ε)
  | clone (sender : Nat)
  | drop (sender : Nat)
  | isClosed (sender : Nat)
  | downgrade (sender : Nat)
  | upgrade (weak : Nat)
  | cloneWeak (weak : Nat)
  | dropWeak (weak : Nat)
  | recv
  | tryRecv
  | close
  | dropReceiver
deriving DecidableEq, Repr

/-- What comes of an operation. -/
inductive Upshot (ε : Type) where
  /-- The event is in the pipe. -/
  | sent
  | refused (error : PipeError)
  /-- The event would have to wait for room, and is not sent. -/
  | givenUp
  /-- There is a new sender with that number. -/
  | made (number : Nat)
  /-- There is no strong sender left to be made one of. -/
  | tooLate
  | found (what : Received ε)
  | took (event : Option ε)
  | told (closed : Bool)
  | done
  /-- Whoever should do it is not there. -/
  | nobody
deriving DecidableEq, Repr

/-- The event that an operation offers. -/
def Operation.event? : Operation ε → Option ε
  | send _ event | trySend _ event | weakSend _ event => some event
  | _ => none

/-- The event that comes out. -/
def Upshot.event? : Upshot ε → Option ε
  | found (.item event) => some event
  | took event => event
  | _ => none

/-- Nothing came of the operation. -/
def Upshot.Fails : Upshot ε → Prop
  | refused _ | givenUp | tooLate | nobody => True
  | _ => False

/-- What comes of a send: it is refused if the pipe is shut for it, otherwise `full` comes of it if there is
no room, and otherwise the event is sent. -/
structure Upshot.Settles (upshot full : Upshot ε) (shut filled : Prop) : Prop where
  refused : upshot = .refused .closed ↔ shut
  full : upshot = full ↔ ¬ shut ∧ filled
  sent : upshot = .sent ↔ ¬ shut ∧ ¬ filled

/-- The event that an operation puts into the pipe, by what comes of it. -/
def accepted? : Operation ε × Upshot ε → Option ε
  | (operation, .sent) => operation.event?
  | _ => none

/-- The events that went in, in order. -/
def accepted (record : List (Operation ε × Upshot ε)) : List ε := record.filterMap accepted?

/-- The events that came out, in order. -/
def received (record : List (Operation ε × Upshot ε)) : List ε :=
  record.filterMap fun entry => entry.2.event?

theorem accepted?_of_fails {operation : Operation ε} {upshot : Upshot ε} (h : upshot.Fails) :
    accepted? (operation, upshot) = none := by
  cases upshot with
  | refused | givenUp | tooLate | nobody => rfl
  | sent | made | found | took | told | done => exact h.elim

/-- A pipe with those who hold an end of it. -/
structure Usage (ε : Type) where
  pipe : Pipe ε
  /-- The strong senders that are left. -/
  strong : List Nat
  /-- The weak senders that are left. -/
  weak : List Nat
  /-- Whether the receiver is there. -/
  receiver : Bool
  /-- How many senders have been made, of both kinds. -/
  made : Nat
  /-- What has been done, and what came of it. -/
  record : List (Operation ε × Upshot ε)

namespace Usage

/-- A new pipe has one strong sender and its receiver. -/
def start (capacity : Nat) : Usage ε := ⟨ofCapacity capacity, [0], [], true, 1, []⟩

variable (u : Usage ε)

/-- Whether those are there who should do it. -/
def Can : Operation ε → Prop
  | .send sender _ | .trySend sender _ | .clone sender | .drop sender | .isClosed sender
    | .downgrade sender => sender ∈ u.strong
  | .weakSend weak _ | .upgrade weak | .cloneWeak weak | .dropWeak weak => weak ∈ u.weak
  | .recv | .tryRecv | .close | .dropReceiver => u.receiver = true

instance : (operation : Operation ε) → Decidable (u.Can operation)
  | .send sender _ | .trySend sender _ | .clone sender | .drop sender | .isClosed sender
    | .downgrade sender => inferInstanceAs (Decidable (sender ∈ u.strong))
  | .weakSend weak _ | .upgrade weak | .cloneWeak weak | .dropWeak weak =>
    inferInstanceAs (Decidable (weak ∈ u.weak))
  | .recv | .tryRecv | .close | .dropReceiver => inferInstanceAs (Decidable (u.receiver = true))

/-- What comes of a send, where `full` does if there is no room. -/
def settle (full : Upshot ε) : Except PipeError (Pipe ε) → Usage ε × Upshot ε
  | .ok pipe => ({ u with pipe }, .sent)
  | .error .closed => (u, .refused .closed)
  | .error .full => (u, full)

/-- One more strong sender. -/
def addStrong (pipe : Pipe ε) : Usage ε × Upshot ε :=
  ({ u with pipe, strong := u.made :: u.strong, made := u.made + 1 }, .made u.made)

/-- One more weak sender. -/
def addWeak : Usage ε × Upshot ε :=
  ({ u with weak := u.made :: u.weak, made := u.made + 1 }, .made u.made)

/-- Does what those who are there can do. -/
def perform : Operation ε → Usage ε × Upshot ε
  | .send _ event => u.settle .givenUp (u.pipe.trySend event)
  | .trySend _ event => u.settle (.refused .full) (u.pipe.trySend event)
  | .weakSend _ event => u.settle .givenUp (u.pipe.tryWeakSend event)
  | .clone _ => u.addStrong u.pipe.addSender
  | .drop sender => ({ u with pipe := u.pipe.dropSender, strong := u.strong.erase sender }, .done)
  | .isClosed _ => (u, .told u.pipe.closed)
  | .downgrade _ | .cloneWeak _ => u.addWeak
  | .upgrade _ =>
    match u.pipe.upgrade? with
    | some pipe => u.addStrong pipe
    | none => (u, .tooLate)
  | .dropWeak weak => ({ u with weak := u.weak.erase weak }, .done)
  | .recv => ({ u with pipe := u.pipe.receive.2 }, .found u.pipe.receive.1)
  | .tryRecv => ({ u with pipe := u.pipe.tryReceive.2 }, .took u.pipe.tryReceive.1)
  | .close => ({ u with pipe := u.pipe.close }, .done)
  | .dropReceiver => ({ u with pipe := u.pipe.discard, receiver := false }, .done)

/-- What comes of an operation. -/
def upshot (operation : Operation ε) : Upshot ε :=
  if u.Can operation then (u.perform operation).2 else .nobody

/-- Puts an operation on record. -/
def note (operation : Operation ε) (upshot : Upshot ε) : Usage ε :=
  { u with record := u.record ++ [(operation, upshot)] }

/-- Has an operation done, if those are there who should do it. -/
def step (operation : Operation ε) : Usage ε :=
  (if u.Can operation then (u.perform operation).1 else u).note operation (u.upshot operation)

/-- What a new pipe has become after some operations. -/
def run (capacity : Nat) (operations : List (Operation ε)) : Usage ε :=
  operations.foldl step (start capacity)

theorem run_concat (capacity : Nat) (operations : List (Operation ε)) (operation : Operation ε) :
    run capacity (operations ++ [operation]) = (run capacity operations).step operation := by
  rw [run, List.foldl_append]
  rfl

/-- What has been done so far. -/
def history : List (Operation ε) := u.record.map (·.1)

@[simp] theorem history_note (operation : Operation ε) (upshot : Upshot ε) :
    (u.note operation upshot).history = u.history ++ [operation] := by
  simp [note, history]

/-! ## Senders -/

/-- The pipe counts its strong senders right, and no two senders go by one number. -/
structure Counted : Prop where
  senders : u.pipe.senders = u.strong.length
  nodup : (u.strong ++ u.weak).Nodup
  lt_made : ∀ number ∈ u.strong ++ u.weak, number < u.made

namespace Counted

variable {u}

theorem notMem_made (h : u.Counted) : u.made ∉ u.strong ++ u.weak :=
  fun hmade => Nat.lt_irrefl _ (h.lt_made _ hmade)

theorem lt_succ (h : u.Counted) {number : Nat} (hnumber : number = u.made ∨ number ∈ u.strong ++ u.weak) :
    number < u.made + 1 := by
  rcases hnumber with rfl | hnumber
  · exact Nat.lt_succ_self _
  · exact Nat.lt_succ_of_lt (h.lt_made _ hnumber)

theorem addStrong (h : u.Counted) : (u.addStrong u.pipe.addSender).1.Counted where
  senders := congrArg (· + 1) h.senders
  nodup := List.nodup_cons.mpr ⟨h.notMem_made, h.nodup⟩
  lt_made _ hnumber := h.lt_succ (List.mem_cons.mp hnumber)

theorem addWeak (h : u.Counted) : u.addWeak.1.Counted where
  senders := h.senders
  nodup := List.perm_middle.nodup_iff.mpr (List.nodup_cons.mpr ⟨h.notMem_made, h.nodup⟩)
  lt_made _ hnumber := h.lt_succ (List.mem_cons.mp (List.perm_middle.mem_iff.mp hnumber))

/-- Senders that are dropped leave the others as they are. -/
theorem of_sublist (h : u.Counted) {v : Usage ε} (hsenders : v.pipe.senders = v.strong.length)
    (hmade : v.made = u.made) (hleft : (v.strong ++ v.weak).Sublist (u.strong ++ u.weak)) : v.Counted where
  senders := hsenders
  nodup := h.nodup.sublist hleft
  lt_made _ hnumber := hmade ▸ h.lt_made _ (hleft.subset hnumber)

end Counted

/-! ## What one operation does -/

/-- What an operation does to queue and receiver: it puts an event in, takes one out, closes the pipe, takes
the receiver away, or leaves them alone.  No operation makes a strong sender if none is left. -/
inductive Does (u : Usage ε) : Operation ε → Upshot ε → Usage ε → Prop
  | puts {operation : Operation ε} {event : ε} (offers : operation.event? = some event)
      (opened : u.pipe.closed = false) (room : u.pipe.queue.length < u.pipe.capacity) :
      Does u operation .sent { u with pipe := { u.pipe with queue := u.pipe.queue ++ [event] } }
  | takes {operation : Operation ε} {upshot : Upshot ε} {event : ε} {rest : List ε}
      (there : u.receiver = true) (queue : u.pipe.queue = event :: rest)
      (accepts : accepted? (operation, upshot) = none) (gives : upshot.event? = some event)
      (shuts : operation ≠ .close ∧ operation ≠ .dropReceiver) :
      Does u operation upshot { u with pipe := { u.pipe with queue := rest } }
  | closes : Does u .close .done { u with pipe := u.pipe.close }
  | drops : Does u .dropReceiver .done { u with pipe := u.pipe.discard, receiver := false }
  | aside {operation : Operation ε} {upshot : Upshot ε} {v : Usage ε}
      (pipe : v.pipe = { u.pipe with senders := v.pipe.senders }) (receiver : v.receiver = u.receiver)
      (record : v.record = u.record)
      (accepts : accepted? (operation, upshot) = none) (gives : upshot.event? = none)
      (shuts : operation = .close ∨ operation = .dropReceiver → u.receiver = false)
      (counted : u.Counted → v.Counted) (last : u.Counted → u.strong = [] → v.strong = []) :
      Does u operation upshot v

variable {u}

theorem perform_upgrade (weak : Nat) : u.perform (.upgrade weak) =
    if u.pipe.senders = 0 then (u, .tooLate) else u.addStrong u.pipe.addSender := by
  by_cases hnone : u.pipe.senders = 0 <;> simp [perform, upgrade?, hnone]

theorem does_settle {operation : Operation ε} {full : Upshot ε} {event : ε}
    {result : Except PipeError (Pipe ε)} (hoffers : operation.event? = some event)
    (hfull : accepted? (operation, full) = none ∧ full.event? = none)
    (hresult : ∀ pipe, result = .ok pipe → u.pipe.trySend event = .ok pipe) :
    u.Does operation (u.settle full result).2 (u.settle full result).1 := by
  have hshuts : operation = .close ∨ operation = .dropReceiver → u.receiver = false := by
    rintro (rfl | rfl) <;> cases hoffers
  match result, hresult with
  | .ok pipe, hresult =>
    obtain ⟨rfl, hopen, hroom⟩ := of_trySend (hresult pipe rfl)
    exact .puts hoffers hopen hroom
  | .error .closed, _ => exact .aside rfl rfl rfl rfl rfl hshuts id fun _ => id
  | .error .full, _ => exact .aside rfl rfl rfl hfull.1 hfull.2 hshuts id fun _ => id

theorem does_perform {operation : Operation ε} (hcan : u.Can operation) :
    u.Does operation (u.perform operation).2 (u.perform operation).1 := by
  cases operation with
  | send sender event => exact does_settle rfl ⟨rfl, rfl⟩ fun _ h => h
  | trySend sender event => exact does_settle rfl ⟨rfl, rfl⟩ fun _ h => h
  | weakSend weak event => exact does_settle rfl ⟨rfl, rfl⟩ fun _ => trySend_of_tryWeakSend
  | clone sender =>
    have hthere : sender ∈ u.strong := hcan
    refine .aside rfl rfl rfl rfl rfl (by simp) Counted.addStrong fun _ hnil => ?_
    exact absurd hnil (List.ne_nil_of_mem hthere)
  | drop sender =>
    have hthere : sender ∈ u.strong := hcan
    refine .aside rfl rfl rfl rfl rfl (by simp) (fun h => ?_) fun _ hnil => ?_
    · refine h.of_sublist ?_ rfl (List.erase_sublist.append_right _)
      exact (congrArg (· - 1) h.senders).trans (List.length_erase_of_mem hthere).symm
    · exact absurd hnil (List.ne_nil_of_mem hthere)
  | isClosed sender => exact .aside rfl rfl rfl rfl rfl (by simp) id fun _ => id
  | downgrade | cloneWeak =>
    exact .aside rfl rfl rfl rfl rfl (by simp) Counted.addWeak fun _ => id
  | dropWeak weak =>
    refine .aside rfl rfl rfl rfl rfl (by simp) (fun h => ?_) fun _ => id
    exact h.of_sublist h.senders rfl (List.erase_sublist.append_left _)
  | upgrade weak =>
    rw [perform_upgrade]
    split
    · exact .aside rfl rfl rfl rfl rfl (by simp) id fun _ => id
    · rename_i hleft
      refine .aside rfl rfl rfl rfl rfl (by simp) Counted.addStrong fun h hnil => ?_
      exact absurd (h.senders.trans (congrArg List.length hnil)) hleft
  | recv =>
    cases hqueue : u.pipe.queue with
    | nil =>
      have hreceive : u.pipe.receive = (if u.pipe.isOver then .closed else .pending, u.pipe) := by
        simp [receive, hqueue]
      simp only [perform, hreceive]
      refine .aside rfl rfl rfl rfl ?_ (by simp) id fun _ => id
      cases u.pipe.isOver <;> rfl
    | cons event rest =>
      have hreceive : u.pipe.receive = (.item event, { u.pipe with queue := rest }) := by
        simp [receive, hqueue]
      simp only [perform, hreceive]
      exact .takes hcan hqueue rfl rfl (by simp)
  | tryRecv =>
    cases hqueue : u.pipe.queue with
    | nil =>
      have hreceive : u.pipe.tryReceive = (none, u.pipe) := by simp [tryReceive, hqueue]
      simp only [perform, hreceive]
      exact .aside rfl rfl rfl rfl rfl (by simp) id fun _ => id
    | cons event rest =>
      have hreceive : u.pipe.tryReceive = (some event, { u.pipe with queue := rest }) := by
        simp [tryReceive, hqueue]
      simp only [perform, hreceive]
      exact .takes hcan hqueue rfl rfl (by simp)
  | close => exact .closes
  | dropReceiver => exact .drops

theorem Does.record_eq {operation : Operation ε} {upshot : Upshot ε} {v : Usage ε}
    (h : u.Does operation upshot v) : v.record = u.record := by
  cases h with
  | puts | takes | closes | drops => rfl
  | aside _ _ hrecord => exact hrecord

theorem Does.counted {operation : Operation ε} {upshot : Upshot ε} {v : Usage ε}
    (h : u.Does operation upshot v) (hcounted : u.Counted) : v.Counted := by
  cases h with
  | puts | takes | closes | drops => exact hcounted.of_sublist hcounted.senders rfl (.refl _)
  | aside _ _ _ _ _ _ hkept => exact hkept hcounted

theorem Does.strong_of_nil {operation : Operation ε} {upshot : Upshot ε} {v : Usage ε}
    (h : u.Does operation upshot v) (hcounted : u.Counted) (hnil : u.strong = []) : v.strong = [] := by
  cases h with
  | puts | takes | closes | drops => exact hnil
  | aside _ _ _ _ _ _ _ hlast => exact hlast hcounted hnil

/-- Every operation does one of these things, also if nobody is there to do it. -/
theorem does_step (u : Usage ε) (operation : Operation ε) :
    ∃ v, u.Does operation (u.upshot operation) v ∧
      u.step operation = v.note operation (u.upshot operation) := by
  by_cases hcan : u.Can operation
  · refine ⟨(u.perform operation).1, ?_, by rw [step, if_pos hcan]⟩
    rw [upshot, if_pos hcan]
    exact does_perform hcan
  · refine ⟨u, ?_, by rw [step, if_neg hcan]⟩
    rw [upshot, if_neg hcan]
    refine .aside rfl rfl rfl rfl rfl ?_ id fun _ => id
    rintro (rfl | rfl) <;> exact Bool.eq_false_iff.mpr hcan

/-! ## What holds of a pipe in use -/

/-- The receiver has closed the pipe or has been dropped. -/
def Shut (operations : List (Operation ε)) : Prop :=
  Operation.close ∈ operations ∨ Operation.dropReceiver ∈ operations

theorem shut_concat {operations : List (Operation ε)} {operation : Operation ε} :
    Shut (operations ++ [operation]) ↔
      Shut operations ∨ operation = .close ∨ operation = .dropReceiver := by
  simp only [Shut, List.mem_append, List.mem_singleton, or_or_or_comm, eq_comm]

theorem dropped_concat {operations : List (Operation ε)} {operation : Operation ε} :
    Operation.dropReceiver ∈ operations ++ [operation] ↔
      Operation.dropReceiver ∈ operations ∨ operation = .dropReceiver := by
  rw [List.mem_append, List.mem_singleton, eq_comm]

/-- What holds of a pipe in use. -/
structure Sound (u : Usage ε) (room : Nat) : Prop where
  capacity : u.pipe.capacity = room
  length : u.pipe.queue.length ≤ room
  counted : u.Counted
  closed : u.pipe.closed = true ↔ Shut u.history
  receiver : u.receiver = true ↔ Operation.dropReceiver ∉ u.history
  /-- What went in has come out, has been lost with the receiver, or is in the queue, in this order. -/
  account : ∃ lost, accepted u.record = received u.record ++ lost ++ u.pipe.queue ∧
    (u.receiver = true → lost = [])

theorem sound_start (capacity : Nat) : (start capacity : Usage ε).Sound capacity :=
  ⟨rfl, Nat.zero_le _, ⟨rfl, by simp [start], by simp [start]⟩,
    by simp [start, history, Shut, ofCapacity], by simp [start, history], [], rfl, fun _ => rfl⟩

theorem accepted_concat (record : List (Operation ε × Upshot ε)) (entry : Operation ε × Upshot ε) :
    accepted (record ++ [entry]) = accepted record ++ (accepted? entry).toList := by
  simp only [accepted, List.filterMap_append]
  cases h : accepted? entry <;> simp [h]

theorem received_concat (record : List (Operation ε × Upshot ε)) (entry : Operation ε × Upshot ε) :
    received (record ++ [entry]) = received record ++ entry.2.event?.toList := by
  simp only [received, List.filterMap_append]
  cases h : entry.2.event? <;> simp [h]

/-- What an operation does keeps a pipe in use sound. -/
theorem Sound.does {room : Nat} {operation : Operation ε} {upshot : Upshot ε} {v : Usage ε}
    (h : u.Sound room) (hdoes : u.Does operation upshot v) : (v.note operation upshot).Sound room := by
  obtain ⟨hcapacity, hlength, hbefore, hclosed, hreceiver, lost, haccount, hlost⟩ := h
  have hcounted : (v.note operation upshot).Counted :=
    (hdoes.counted hbefore).of_sublist (hdoes.counted hbefore).senders rfl (.refl _)
  cases hdoes with
  | @puts _ event hoffers hopen hroom =>
    have hshuts : ¬ (operation = .close ∨ operation = .dropReceiver) := by
      rintro (rfl | rfl) <;> cases hoffers
    refine ⟨hcapacity, ?_, hcounted, ?_, ?_, lost, ?_, hlost⟩
    · simp only [note, List.length_append, List.length_singleton]
      omega
    · rw [history_note, shut_concat, or_iff_left hshuts]
      exact hclosed
    · rw [history_note, dropped_concat, or_iff_left fun heq => hshuts (.inr heq)]
      exact hreceiver
    · simp only [note, accepted_concat, received_concat, accepted?, hoffers, haccount, Upshot.event?]
      simp
  | @takes _ _ event rest hthere hqueue haccepts hgives hshuts =>
    refine ⟨hcapacity, ?_, hcounted, ?_, ?_, lost, ?_, hlost⟩
    · rw [hqueue] at hlength
      exact Nat.le_of_succ_le hlength
    · rw [history_note, shut_concat, or_iff_left (not_or.mpr hshuts)]
      exact hclosed
    · rw [history_note, dropped_concat, or_iff_left hshuts.2]
      exact hreceiver
    · simp only [note, accepted_concat, received_concat, haccepts, hgives, haccount, hlost hthere, hqueue]
      simp
  | closes =>
    refine ⟨hcapacity, hlength, hcounted, ?_, ?_, lost, ?_, hlost⟩
    · simp [note, history, close, shut_concat]
    · simpa [note, history] using hreceiver
    · simp only [note, accepted_concat, received_concat, accepted?, Upshot.event?, close]
      simpa using haccount
  | drops =>
    refine ⟨hcapacity, Nat.zero_le _, hcounted, ?_, ?_, lost ++ u.pipe.queue, ?_, nofun⟩
    · simp [note, history, discard, shut_concat]
    · simp [note, history]
    · simp only [note, accepted_concat, received_concat, accepted?, Upshot.event?, discard]
      simpa using haccount
  | aside hpipe hreceiver' hrecord haccepts hgives hshuts =>
    have hqueue : v.pipe.queue = u.pipe.queue := by rw [hpipe]
    have hhistory : v.history = u.history := by rw [history, hrecord, history]
    -- what shuts a pipe is left alone only by a receiver that is no longer there
    have hgone : operation = .close ∨ operation = .dropReceiver →
        Operation.dropReceiver ∈ u.history := by
      intro hoperation
      by_contra hnot
      rw [hshuts hoperation] at hreceiver
      exact Bool.false_ne_true (hreceiver.mpr hnot)
    refine ⟨?_, ?_, hcounted, ?_, ?_, lost, ?_, ?_⟩
    · rw [← hcapacity, note, hpipe]
    · simp only [note, hqueue]
      exact hlength
    · rw [history_note, shut_concat, hhistory, or_iff_left_of_imp fun hshuts => .inr (hgone hshuts),
        ← hclosed, note, hpipe]
    · rw [history_note, dropped_concat, hhistory, or_iff_left_of_imp fun hdrops => hgone (.inr hdrops),
        ← hreceiver, note, hreceiver']
    · simp only [note, accepted_concat, received_concat, hrecord, haccepts, hgives, hqueue]
      simpa using haccount
    · simp only [note, hreceiver']
      exact hlost

/-- Whatever is done keeps a pipe in use sound. -/
theorem Sound.step {room : Nat} (h : u.Sound room) (operation : Operation ε) :
    (u.step operation).Sound room := by
  obtain ⟨v, hdoes, hstep⟩ := u.does_step operation
  rw [hstep]
  exact h.does hdoes

theorem sound_run (capacity : Nat) (operations : List (Operation ε)) :
    (run capacity operations).Sound capacity := by
  induction operations using List.reverseRecOn with
  | nil => exact sound_start capacity
  | append_singleton operations operation ih =>
    rw [run_concat]
    exact ih.step operation

theorem history_run (capacity : Nat) (operations : List (Operation ε)) :
    (run capacity operations).history = operations := by
  induction operations using List.reverseRecOn with
  | nil => rfl
  | append_singleton operations operation ih =>
    obtain ⟨v, hdoes, hstep⟩ := (run capacity operations).does_step operation
    rw [run_concat, hstep, history_note, history, hdoes.record_eq, ← history, ih]

/-- No strong sender comes back once none is left. -/
theorem Sound.strong_foldl {room : Nat} (h : u.Sound room) (hnil : u.strong = [])
    (operations : List (Operation ε)) : (operations.foldl Usage.step u).strong = [] := by
  induction operations generalizing u with
  | nil => exact hnil
  | cons operation operations ih =>
    refine ih (h.step operation) ?_
    obtain ⟨v, hdoes, hstep⟩ := u.does_step operation
    rw [hstep]
    exact hdoes.strong_of_nil h.counted hnil

/-! ## What comes of sends -/

theorem settle_of_fails {full : Upshot ε} {result : Except PipeError (Pipe ε)}
    (h : (u.settle full result).2.Fails) : (u.settle full result).1 = u := by
  match result, h with
  | .error .closed, _ | .error .full, _ => rfl

theorem upshot_of_can {operation : Operation ε} (hcan : u.Can operation) :
    u.upshot operation = (u.perform operation).2 :=
  if_pos hcan

/-- An operation that fails changes nothing. -/
theorem step_of_fails {operation : Operation ε} (h : (u.upshot operation).Fails) :
    u.step operation = u.note operation (u.upshot operation) := by
  by_cases hcan : u.Can operation
  · rw [upshot_of_can hcan] at h
    rw [step, if_pos hcan]
    refine congrArg (fun v => note v operation (u.upshot operation)) ?_
    cases operation with
    | send | trySend | weakSend => exact settle_of_fails h
    | upgrade weak =>
      rw [perform_upgrade] at h ⊢
      split at h
      · rename_i hnone
        rw [if_pos hnone]
      · exact h.elim
    | clone | drop | isClosed | downgrade | cloneWeak | dropWeak | recv | tryRecv | close
      | dropReceiver => exact h.elim
  · rw [step, if_neg hcan]

theorem settles_settle {full : Upshot ε} (hfull : full.Fails) (hclosed : full ≠ .refused .closed)
    {result : Except PipeError (Pipe ε)} {shut filled : Prop} (hshut : result = .error .closed ↔ shut)
    (hfilled : result = .error .full ↔ ¬ shut ∧ filled) :
    (u.settle full result).2.Settles full shut filled := by
  have hsent : full ≠ .sent := by
    rintro rfl
    exact hfull
  match result, hshut, hfilled with
  | .ok pipe, hshut, hfilled =>
    have hopen : ¬ shut := fun h => nomatch hshut.mpr h
    have hroom : ¬ filled := fun h => nomatch hfilled.mpr ⟨hopen, h⟩
    exact ⟨by simp [settle, hopen], by simp [settle, hroom, hsent.symm], by simp [settle, hopen, hroom]⟩
  | .error .closed, hshut, hfilled =>
    have hshut : shut := hshut.mp rfl
    exact ⟨by simp [settle, hshut], by simp [settle, hshut, hclosed.symm], by simp [settle, hshut]⟩
  | .error .full, hshut, hfilled =>
    obtain ⟨hopen, hfilled⟩ := hfilled.mp rfl
    exact ⟨by simp [settle, hopen, hclosed], by simp [settle, hopen, hfilled],
      by simp [settle, hfilled, hsent]⟩

variable {room : Nat}

namespace Sound

theorem trySend_closed (h : u.Sound room) (event : ε) :
    u.pipe.trySend event = .error .closed ↔ Shut u.history :=
  (trySend_eq_closed_iff _ _).trans h.closed

theorem trySend_full (h : u.Sound room) (event : ε) :
    u.pipe.trySend event = .error .full ↔ ¬ Shut u.history ∧ u.pipe.queue.length = room := by
  rw [trySend_eq_full_iff, ← h.closed, Bool.not_eq_true, h.capacity]
  exact and_congr_right fun _ => ⟨Nat.le_antisymm h.length, fun heq => Nat.le_of_eq heq.symm⟩

theorem senders_eq_zero (h : u.Sound room) : u.pipe.senders = 0 ↔ u.strong = [] := by
  rw [h.counted.senders, List.length_eq_zero_iff]

theorem tryWeakSend_closed (h : u.Sound room) (event : ε) :
    u.pipe.tryWeakSend event = .error .closed ↔ u.strong = [] ∨ Shut u.history := by
  rw [tryWeakSend_eq_closed_iff, h.senders_eq_zero, h.closed]

theorem tryWeakSend_full (h : u.Sound room) (event : ε) :
    u.pipe.tryWeakSend event = .error .full ↔
      ¬ (u.strong = [] ∨ Shut u.history) ∧ u.pipe.queue.length = room := by
  rw [tryWeakSend_eq_full_iff, ← trySend_eq_full_iff _ event, h.trySend_full, Ne, h.senders_eq_zero,
    not_or, and_assoc]

/-- The number of a sender that is dropped is given to no other. -/
theorem notMem_drop (h : u.Sound room) (sender : Nat) : sender ∉ (u.step (.drop sender)).strong := by
  have hnodup : u.strong.Nodup := h.counted.nodup.sublist (List.sublist_append_left _ _)
  by_cases hcan : u.Can (.drop sender)
  · rw [Usage.step, if_pos hcan]
    exact hnodup.not_mem_erase
  · rw [Usage.step, if_neg hcan]
    exact hcan

theorem settles_trySend (h : u.Sound room) {sender : Nat} (hsender : sender ∈ u.strong) (event : ε) :
    (u.upshot (.trySend sender event)).Settles (.refused .full) (Shut u.history)
      (u.pipe.queue.length = room) := by
  have hcan : u.Can (.trySend sender event) := hsender
  rw [upshot_of_can hcan]
  exact settles_settle (by trivial) (by simp) (h.trySend_closed event) (h.trySend_full event)

theorem settles_send (h : u.Sound room) {sender : Nat} (hsender : sender ∈ u.strong) (event : ε) :
    (u.upshot (.send sender event)).Settles .givenUp (Shut u.history) (u.pipe.queue.length = room) := by
  have hcan : u.Can (.send sender event) := hsender
  rw [upshot_of_can hcan]
  exact settles_settle (by trivial) (by simp) (h.trySend_closed event) (h.trySend_full event)

theorem settles_weakSend (h : u.Sound room) {weak : Nat} (hweak : weak ∈ u.weak) (event : ε) :
    (u.upshot (.weakSend weak event)).Settles .givenUp (u.strong = [] ∨ Shut u.history)
      (u.pipe.queue.length = room) := by
  have hcan : u.Can (.weakSend weak event) := hweak
  rw [upshot_of_can hcan]
  exact settles_settle (by trivial) (by simp) (h.tryWeakSend_closed event) (h.tryWeakSend_full event)

/-- The receiver finds the end once the queue is empty and nothing more can come. -/
theorem recv_closed_iff (h : u.Sound room) (hthere : u.receiver = true) :
    u.upshot .recv = .found .closed ↔
      u.pipe.queue = [] ∧ (Operation.close ∈ u.history ∨ u.strong = []) := by
  have hcan : u.Can .recv := hthere
  have hshut : Shut u.history ↔ Operation.close ∈ u.history := or_iff_left (h.receiver.mp hthere)
  have hover : u.pipe.isOver = true ↔ Operation.close ∈ u.history ∨ u.strong = [] := by
    rw [isOver, Bool.or_eq_true, beq_iff_eq, h.closed, hshut, h.senders_eq_zero]
  rw [upshot_of_can hcan, perform, Upshot.found.injEq, receive_eq_closed_iff, hover]

end Sound

/-! ## What users may rely on -/

/-- What those who hold an end of a pipe may rely on after some operations. -/
structure Contract (capacity : Nat) (operations : List (Operation ε)) (u : Usage ε) : Prop where
  /-- All operations are on record. -/
  history : u.history = operations
  /-- What has come out went in before, in the same order and no oftener. -/
  received_prefix : received u.record <+: accepted u.record
  /-- While the receiver is there, all that went in has come out or is in the queue. -/
  accepted_eq : u.receiver = true → accepted u.record = received u.record ++ u.pipe.queue
  length_le : u.pipe.queue.length ≤ capacity
  fails : ∀ operation, (u.upshot operation).Fails →
    (u.step operation).pipe = u.pipe ∧ accepted (u.step operation).record = accepted u.record
  trySend : ∀ sender ∈ u.strong, ∀ event, (u.upshot (.trySend sender event)).Settles (.refused .full)
    (Shut operations) (u.pipe.queue.length = capacity)
  send : ∀ sender ∈ u.strong, ∀ event, (u.upshot (.send sender event)).Settles .givenUp
    (Shut operations) (u.pipe.queue.length = capacity)
  weakSend : ∀ weak ∈ u.weak, ∀ event, (u.upshot (.weakSend weak event)).Settles .givenUp
    (u.strong = [] ∨ Shut operations) (u.pipe.queue.length = capacity)
  /-- Weak senders do not count for the end. -/
  recv : u.receiver = true → (u.upshot .recv = .found .closed ↔
    u.pipe.queue = [] ∧ (Operation.close ∈ operations ∨ u.strong = []))
  /-- A sender that is dropped is gone. -/
  drop : ∀ sender, sender ∉ (u.step (.drop sender)).strong
  /-- Weak senders do not bring back a strong one. -/
  last : u.strong = [] → ∀ more : List (Operation ε), (more.foldl step u).strong = []

/-- **A pipe keeps its contract** whatever is done to it, by whomever and in whatever order. -/
theorem run_keeps_contract {capacity : Nat} (hcapacity : 1 ≤ capacity) :
    Pipe.create? capacity = some (start capacity : Usage ε).pipe ∧
      ∀ operations : List (Operation ε), Contract capacity operations (run capacity operations) := by
  refine ⟨if_neg (Nat.ne_of_gt hcapacity), fun operations => ?_⟩
  have hsound := sound_run capacity operations
  obtain ⟨lost, haccount, hlost⟩ := hsound.account
  constructor
  case history => exact history_run capacity operations
  case received_prefix =>
    rw [haccount, List.append_assoc]
    exact List.prefix_append _ _
  case accepted_eq =>
    intro hthere
    rw [haccount, hlost hthere, List.append_nil]
  case length_le => exact hsound.length
  case fails =>
    intro operation hfails
    rw [step_of_fails hfails]
    refine ⟨rfl, ?_⟩
    rw [note, accepted_concat, accepted?_of_fails hfails, Option.toList_none, List.append_nil]
  case trySend =>
    intro sender hsender event
    simpa only [history_run] using hsound.settles_trySend hsender event
  case send =>
    intro sender hsender event
    simpa only [history_run] using hsound.settles_send hsender event
  case weakSend =>
    intro weak hweak event
    simpa only [history_run] using hsound.settles_weakSend hweak event
  case recv =>
    intro hthere
    rw [hsound.recv_closed_iff hthere, history_run]
  case drop => exact hsound.notMem_drop
  case last => exact hsound.strong_foldl

/-- A pipe with room for two.  One event is sent, one goes in through a weak sender, and for two more there is
no room.  Then the only strong sender is dropped and what is in the pipe comes out. -/
def abandoned : List (Operation Nat) := [.trySend 0 10, .downgrade 0, .weakSend 1 20, .trySend 0 30,
  .send 0 40, .drop 0, .recv, .tryRecv]

/-- The weak sender is still there, and yet the receiver finds the end and nothing can be sent any more. -/
theorem run_keeps_contract_abandoned :
    let u := run 2 abandoned
    1 ≤ 2 ∧ u.weak = [1] ∧ received u.record = [10, 20] ∧ accepted u.record = [10, 20] ∧
      u.upshot .recv = .found .closed ∧ u.upshot (.weakSend 1 50) = .refused .closed := by
  intro u
  obtain ⟨-, hcontract⟩ := run_keeps_contract (ε := Nat) (show 1 ≤ 2 by decide)
  obtain ⟨-, -, haccepted, -, -, -, -, hweak, hrecv, -⟩ := hcontract abandoned
  have hreceived : received u.record = [10, 20] := by decide
  have hqueue : u.pipe.queue = [] := by decide
  have hstrong : u.strong = [] := by decide
  refine ⟨by decide, by decide, hreceived, ?_, (hrecv (by decide)).mpr ⟨hqueue, .inr hstrong⟩,
    (hweak 1 (by decide) 50).refused.mpr (.inl hstrong)⟩
  rw [haccepted (by decide), hreceived, hqueue, List.append_nil]

end Usage

end Pipe

end RaftReplica
