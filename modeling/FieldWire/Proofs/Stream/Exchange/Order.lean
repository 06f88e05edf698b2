import FieldWire.Proofs.Stream.Exchange

/-!
# What the consumer is told

The consumer is told the accepted items in the order in which they were accepted, without a gap.
After them it may be told the error that the producer ended with, once; and then, as after the plain
end and after cancelling, only that there is nothing more.
-/

set_option autoImplicit false

namespace FieldWire.Stream.Exchange

variable {initial : Nat} {exchange later : Exchange}

/-- How far the consumer is.  The accepted items are those that were delivered and then those that
are in the queue; an error stands in the queue behind all of them. -/
inductive Progress (exchange : Exchange) : Prop where
  | running (delivered queued : List Bytes) (ending : Option StreamError) (count : Nat)
      (accepted : exchange.accepted = delivered ++ queued)
      (queue : exchange.channel.queue = queued.map .ok ++ ending.toList.map .error)
      (told : exchange.told = delivered.map .item ++ List.replicate count .done)
      (ended : ∀ error, ending = some error →
        exchange.failure = some error ∧ exchange.channel.hasSender = false)
      (stopped : 0 < count → exchange.channel.terminated = true)
      (whole : exchange.channel.terminated = true → exchange.withdrawn = false →
        queued = [] ∧ exchange.channel.hasSender = false) : Progress exchange
  | failed (error : StreamError) (count : Nat)
      (told : exchange.told =
        exchange.accepted.map .item ++ .error error :: List.replicate count .done)
      (failure : exchange.failure = some error) (gone : exchange.channel.hasSender = false)
      (terminated : exchange.channel.terminated = true) : Progress exchange

theorem progress_start (initial : Nat) : (start initial).Progress :=
  .running [] [] none 0 rfl rfl rfl (fun _ found => by cases found)
    (fun positive => absurd positive (Nat.lt_irrefl 0)) (fun terminated => by cases terminated)

/-! ## The producer -/

/-- A step that neither puts anything into the queue nor takes anything out of it. -/
theorem Progress.still (progress : exchange.Progress)
    (accepted : later.accepted = exchange.accepted) (told : later.told = exchange.told)
    (failure : later.failure = exchange.failure)
    (queue : later.channel.queue = exchange.channel.queue)
    (sender : later.channel.hasSender = exchange.channel.hasSender)
    (terminated : later.channel.terminated = exchange.channel.terminated)
    (withdrawn : later.withdrawn = exchange.withdrawn) : later.Progress := by
  cases progress with
  | running delivered queued ending count split held said ended stopped whole =>
    rw [← accepted] at split
    rw [← queue] at held
    rw [← told] at said
    rw [← failure, ← sender] at ended
    rw [← terminated] at stopped
    rw [← terminated, ← withdrawn, ← sender] at whole
    exact .running delivered queued ending count split held said ended stopped whole
  | failed error count said given gone stop =>
    rw [← told, ← accepted] at said
    exact .failed error count said (failure.trans given) (sender.trans gone) (terminated.trans stop)

/-- As long as the producer is there the consumer has been told no error, and none is in the queue. -/
theorem Progress.of_sender (progress : exchange.Progress)
    (sender : exchange.channel.hasSender = true) :
    ∃ delivered queued count, exchange.accepted = delivered ++ queued ∧
      exchange.channel.queue = queued.map .ok ∧
      exchange.told = delivered.map .item ++ List.replicate count .done ∧
      (0 < count → exchange.channel.terminated = true) ∧
      (exchange.channel.terminated = true → exchange.withdrawn = true) := by
  -- An error, in the queue or told, is what a producer leaves when it goes.
  have present : exchange.channel.hasSender ≠ false := ne_false_of_eq_true sender
  cases progress with
  | running delivered queued ending count split held said ended stopped whole =>
    cases ending with
    | some error => exact absurd (ended error rfl).2 present
    | none =>
      refine ⟨delivered, queued, count, split, by simpa using held, said, stopped, ?_⟩
      intro stop
      by_contra stays
      exact present (whole stop (eq_false_of_ne_true stays)).2
  | failed error count said given gone stop => exact absurd gone present

/-- An item is accepted. -/
theorem Progress.accept (progress : exchange.Progress) (sender : exchange.channel.hasSender = true)
    (item : Bytes) {channel : Channel}
    (queue : channel.queue = exchange.channel.queue ++ [.ok item])
    (terminated : channel.terminated = exchange.channel.terminated) :
    { exchange with channel := channel, accepted := exchange.accepted ++ [item] }.Progress := by
  obtain ⟨delivered, queued, count, split, held, said, stopped, withdrew⟩ :=
    progress.of_sender sender
  refine .running delivered (queued ++ [item]) none count ?_ ?_ said (fun _ found => by cases found)
    ?_ ?_
  · rw [split, List.append_assoc]
  · rw [queue, held]
    simp
  · exact fun positive => terminated.trans (stopped positive)
  · intro stop stays
    exact absurd (withdrew (terminated.symm.trans stop)) (ne_true_of_eq_false stays)

theorem Progress.send (progress : exchange.Progress) (orderly : exchange.channel.Orderly)
    (item : Bytes) (sender : exchange.channel.hasSender = true) :
    (exchange.send item).Progress := by
  rcases send_cases orderly item with same | ⟨_, same⟩ | same <;> rw [same]
  · exact progress
  · exact progress.accept sender item rfl rfl
  · exact progress.still rfl rfl rfl rfl rfl rfl rfl

theorem Progress.resume (progress : exchange.Progress) (orderly : exchange.channel.Orderly)
    {ticket : Ticket} {item : Bytes} (waits : (ticket, item) ∈ exchange.channel.pending) :
    (exchange.resume ticket item).Progress := by
  rcases resume_cases orderly waits with same | ⟨_, same⟩ | same <;> rw [same]
  · exact progress.still rfl rfl rfl rfl rfl rfl rfl
  · exact progress.accept (orderly.sending waits) item rfl rfl
  · exact progress

/-- The producer goes, and may leave an error behind everything else. -/
theorem Progress.leave (progress : exchange.Progress) (sender : exchange.channel.hasSender = true)
    (ending failure : Option StreamError)
    (given : ∀ error, ending = some error → failure = some error) {channel : Channel}
    (queue : channel.queue = exchange.channel.queue ++ ending.toList.map Except.error)
    (gone : channel.hasSender = false)
    (terminated : channel.terminated = exchange.channel.terminated) :
    { exchange with channel := channel, failure := failure }.Progress := by
  obtain ⟨delivered, queued, count, split, held, said, stopped, withdrew⟩ :=
    progress.of_sender sender
  refine .running delivered queued ending count split ?_ said
    (fun error found => ⟨given error found, gone⟩) ?_ ?_
  · rw [queue, held]
  · exact fun positive => terminated.trans (stopped positive)
  · intro stop stays
    exact absurd (withdrew (terminated.symm.trans stop)) (ne_true_of_eq_false stays)

theorem Progress.fail (progress : exchange.Progress) (sender : exchange.channel.hasSender = true)
    (error : StreamError) : (exchange.fail error).Progress := by
  unfold Exchange.fail Channel.fail
  split
  · exact progress.leave sender none (some error) (fun _ found => by cases found)
      (List.append_nil _).symm rfl rfl
  · exact progress.leave sender (some error) (some error) (fun _ => id) rfl rfl rfl

theorem Progress.complete (progress : exchange.Progress)
    (sender : exchange.channel.hasSender = true) : exchange.complete.Progress :=
  progress.leave sender none exchange.failure (fun _ found => by cases found)
    (List.append_nil _).symm rfl rfl

/-! ## The consumer -/

theorem Progress.request (progress : exchange.Progress) (count : Nat) :
    (exchange.request count).Progress := by
  rcases exchange.request_cases count with same | same <;> rw [same]
  · exact progress.still rfl rfl rfl rfl rfl rfl rfl
  · exact progress

/-- A consumer that has stopped is told that there is nothing more. -/
theorem next_of_terminated (terminated : exchange.channel.terminated = true) :
    exchange.next = { exchange with told := exchange.told ++ [.done] } := by
  have answer : exchange.channel.next = (.done, exchange.channel) := by
    simp [Channel.next, terminated]
  simp only [Exchange.next, answer, Next.noted]

theorem Progress.next_of_terminated (progress : exchange.Progress)
    (terminated : exchange.channel.terminated = true) : exchange.next.Progress := by
  rw [Exchange.next_of_terminated terminated]
  cases progress with
  | running delivered queued ending count split held said ended stopped whole =>
    refine .running delivered queued ending (count + 1) split held ?_ ended (fun _ => terminated) whole
    rw [said, List.replicate_succ', List.append_assoc]
  | failed error count said given gone _ =>
    refine .failed error (count + 1) ?_ given gone terminated
    rw [said, List.replicate_succ', List.append_assoc, List.cons_append]

/-- Everything that was accepted has been delivered.  What may be left is the error. -/
theorem Progress.next_of_drained {ending : Option StreamError}
    (terminated : exchange.channel.terminated = false)
    (queue : exchange.channel.queue = ending.toList.map .error)
    (told : exchange.told = exchange.accepted.map .item)
    (ended : ∀ error, ending = some error →
      exchange.failure = some error ∧ exchange.channel.hasSender = false) :
    exchange.next.Progress := by
  have whole : exchange.accepted = exchange.accepted ++ [] := (List.append_nil _).symm
  cases ending with
  | some error =>
    have answer : exchange.channel.next =
        (.error error, { exchange.channel with queue := [] }.cancel) := by
      simp [Channel.next, terminated, queue]
    obtain ⟨given, gone⟩ := ended error rfl
    simp only [Exchange.next, answer]
    refine .failed error 0 ?_ given gone rfl
    rw [told]
    rfl
  | none =>
    cases sender : exchange.channel.hasSender with
    | true =>
      have answer : exchange.channel.next = (.pending, exchange.channel) := by
        simp [Channel.next, terminated, queue, sender]
      simp only [Exchange.next, answer, Next.noted, List.append_nil]
      refine .running exchange.accepted [] none 0 whole queue ?_ ended
        (fun positive => absurd positive (Nat.lt_irrefl 0))
        (fun stop => absurd stop (ne_true_of_eq_false terminated))
      rw [told, List.replicate_zero, List.append_nil]
    | false =>
      have answer : exchange.channel.next = (.done, { exchange.channel with terminated := true }) := by
        simp [Channel.next, terminated, queue, sender]
      simp only [Exchange.next, answer]
      refine .running exchange.accepted [] none 1 whole queue ?_ (fun _ found => by cases found)
        (fun _ => rfl) (fun _ _ => ⟨rfl, sender⟩)
      rw [told]
      rfl

theorem Progress.next (progress : exchange.Progress) : exchange.next.Progress := by
  cases terminated : exchange.channel.terminated with
  | true => exact progress.next_of_terminated terminated
  | false =>
    have listening : exchange.channel.terminated ≠ true := ne_true_of_eq_false terminated
    cases progress with
    | failed _ _ _ _ _ stop => exact absurd stop listening
    | running delivered queued ending count split held said ended stopped whole =>
      obtain rfl : count = 0 := by
        by_contra positive
        exact listening (stopped (Nat.pos_of_ne_zero positive))
      rw [List.replicate_zero, List.append_nil] at said
      cases queued with
      | cons item queued =>
        have answer : exchange.channel.next = (.item item, { exchange.channel with
            queue := queued.map .ok ++ ending.toList.map .error }) := by
          simp [Channel.next, terminated, held]
        simp only [Exchange.next, answer]
        refine .running (delivered ++ [item]) queued ending 0 ?_ rfl ?_ ended
          (fun positive => absurd positive (Nat.lt_irrefl 0)) (fun stop => absurd stop listening)
        · rw [split, List.append_cons]
        · simp [said, Next.noted]
      | nil =>
        rw [List.append_nil] at split
        rw [← split] at said
        exact .next_of_drained terminated held said ended

/-- The consumer withdraws. -/
theorem Progress.withdraw (progress : exchange.Progress) {channel : Channel}
    (queue : channel.queue = exchange.channel.queue)
    (sender : channel.hasSender = exchange.channel.hasSender)
    (terminated : exchange.channel.terminated = true → channel.terminated = true) :
    { exchange with channel := channel, withdrawn := true }.Progress := by
  cases progress with
  | running delivered queued ending count split held said ended stopped whole =>
    rw [← sender] at ended
    exact .running delivered queued ending count split (queue.trans held) said ended
      (fun positive => terminated (stopped positive)) (fun _ stays => by cases stays)
  | failed error count said given gone stop =>
    exact .failed error count said given (sender.trans gone) (terminated stop)

/-! ## Runs -/

theorem progress_of_act (progress : exchange.Progress) (orderly : exchange.channel.Orderly)
    (act : exchange.Act later) : later.Progress := by
  cases act with
  | send item sender => exact progress.send orderly item sender
  | resume waits => exact progress.resume orderly waits
  | abandon => exact progress.still rfl rfl rfl rfl rfl rfl rfl
  | fail error sender => exact progress.fail sender error
  | complete sender => exact progress.complete sender
  | request count => exact progress.request count
  | next => exact progress.next
  | cancel => exact progress.withdraw rfl rfl fun _ => rfl
  | drop => exact progress.withdraw rfl rfl id

theorem progress_of_reaches (reached : Reaches initial exchange) : exchange.Progress := by
  induction reached with
  | refl => exact progress_start initial
  | tail before act ih => exact progress_of_act ih (orderly_of_reaches before) act

/-! ## When credit is refused -/

/-- The pool is cancelled only if the consumer has stopped or withdrawn. -/
def Closing (exchange : Exchange) : Prop :=
  exchange.channel.credit.cancelled = true →
    exchange.channel.terminated = true ∨ exchange.withdrawn = true

theorem Closing.abandon (closing : exchange.Closing) (ticket : Ticket) :
    (exchange.abandon ticket).Closing := fun cancelled =>
  closing ((CreditPool.cancelled_abandon _ _).symm.trans cancelled)

theorem closing_of_act (closing : exchange.Closing) (orderly : exchange.channel.Orderly)
    (act : exchange.Act later) : later.Closing := by
  cases act with
  | send item =>
    rcases send_cases orderly item with same | ⟨_, same⟩ | same <;> rw [same] <;> exact closing
  | resume waits =>
    rcases resume_cases orderly waits with same | ⟨_, same⟩ | same <;> rw [same]
    · exact closing.abandon _
    · exact closing
    · exact closing
  | abandon => exact closing.abandon _
  | fail error =>
    unfold Exchange.fail Channel.fail
    split <;> exact closing
  | complete => exact closing
  | request count =>
    rcases exchange.request_cases count with same | same <;> rw [same] <;> exact closing
  | next =>
    unfold Exchange.next
    rcases exchange.channel.next_cases with ⟨_, same⟩ |
      ⟨_, ⟨_, _, _, same⟩ | ⟨_, _, _, same⟩ | ⟨_, _, same⟩ | ⟨_, _, same⟩⟩ <;> rw [same]
    · exact closing
    · exact closing
    · exact fun _ => .inl rfl
    · exact closing
    · exact fun _ => .inl rfl
  | cancel => exact fun _ => .inr rfl
  | drop => exact fun _ => .inr rfl

theorem closing_of_reaches (reached : Reaches initial exchange) : exchange.Closing := by
  induction reached with
  | refl => exact fun cancelled => by cases cancelled
  | tail before act ih => exact closing_of_act ih (orderly_of_reaches before) act

/-- Unless the consumer withdraws, credit is granted as long as the producer is there. -/
theorem granting_of_sender (reached : Reaches initial exchange)
    (stays : exchange.withdrawn = false) (sender : exchange.channel.hasSender = true) :
    exchange.channel.credit.cancelled = false := by
  refine eq_false_of_ne_true fun cancelled => ne_true_of_eq_false stays ?_
  obtain ⟨_, _, _, _, _, _, _, withdrew⟩ := (progress_of_reaches reached).of_sender sender
  exact (closing_of_reaches reached cancelled).elim withdrew id

/-! ## After the end -/

/-- The consumer was told the end or an error. -/
def Ended (exchange : Exchange) : Prop :=
  .done ∈ exchange.told ∨ ∃ error, .error error ∈ exchange.told

theorem Progress.terminated_of_ended (progress : exchange.Progress) (ended : exchange.Ended) :
    exchange.channel.terminated = true := by
  cases progress with
  | running delivered queued ending count split held said _ stopped whole =>
    refine stopped (Nat.pos_of_ne_zero ?_)
    rintro rfl
    simp [Ended, said] at ended
  | failed error count said given gone stop => exact stop

/-- What the consumer is told once it has stopped. -/
theorem silent_of_act (orderly : exchange.channel.Orderly)
    (terminated : exchange.channel.terminated = true) (act : exchange.Act later) :
    later.channel.terminated = true ∧
      ∃ count, later.told = exchange.told ++ List.replicate count .done := by
  have nothing : exchange.told = exchange.told ++ List.replicate 0 .done :=
    (List.append_nil _).symm
  cases act with
  | send item =>
    rcases send_cases orderly item with same | ⟨_, same⟩ | same <;> rw [same] <;>
      exact ⟨terminated, 0, nothing⟩
  | resume waits =>
    rcases resume_cases orderly waits with same | ⟨_, same⟩ | same <;> rw [same] <;>
      exact ⟨terminated, 0, nothing⟩
  | abandon => exact ⟨terminated, 0, nothing⟩
  | fail error =>
    unfold Exchange.fail Channel.fail
    split <;> exact ⟨terminated, 0, nothing⟩
  | complete => exact ⟨terminated, 0, nothing⟩
  | request count =>
    rcases exchange.request_cases count with same | same <;> rw [same] <;>
      exact ⟨terminated, 0, nothing⟩
  | next =>
    rw [next_of_terminated terminated]
    exact ⟨terminated, 1, rfl⟩
  | cancel => exact ⟨rfl, 0, nothing⟩
  | drop => exact ⟨terminated, 0, nothing⟩

/-- Whatever happens from here on, the consumer is told each time that there is nothing more. -/
def Over (exchange : Exchange) : Prop :=
  ∀ later, exchange.Leads later → later.channel.next.1 = .done ∧
    ∃ count, later.told = exchange.told ++ List.replicate count .done

theorem over_of_terminated (orderly : exchange.channel.Orderly)
    (terminated : exchange.channel.terminated = true) : exchange.Over := by
  intro later leads
  suffices silent : later.channel.Orderly ∧ later.channel.terminated = true ∧
      ∃ count, later.told = exchange.told ++ List.replicate count .done by
    refine ⟨?_, silent.2.2⟩
    simp [Channel.next, silent.2.1]
  induction leads with
  | refl => exact ⟨orderly, terminated, 0, (List.append_nil _).symm⟩
  | tail _ act ih =>
    obtain ⟨orderly, terminated, count, told⟩ := ih
    obtain ⟨stays, more, silent⟩ := silent_of_act orderly terminated act
    refine ⟨orderly_of_act orderly act, stays, count + more, ?_⟩
    rw [silent, told, List.append_assoc, List.replicate_append_replicate]

/-- The consumer has to wait only if nothing is queued and the producer is still there. -/
theorem waiting_of_pending {channel : Channel} (waits : channel.next.1 = .pending) :
    channel.queue = [] ∧ channel.hasSender = true := by
  rcases channel.next_cases with ⟨_, same⟩ |
    ⟨_, ⟨_, _, _, same⟩ | ⟨_, _, _, same⟩ | ⟨empty, sender, _⟩ | ⟨_, _, same⟩⟩
  · simp [same] at waits
  · simp [same] at waits
  · simp [same] at waits
  · exact ⟨empty, sender⟩
  · simp [same] at waits

/-- Whatever the producer and the consumer do, the consumer is told the items that were accepted, in
their order.  An error is the one that the producer ended with, and comes after all of them.  A
consumer that has neither cancelled nor gone away and is told the end has got them all, and one that
has to wait has got all so far.  After the end, after an error and after cancelling it is told
nothing more. -/
theorem delivers_in_order (reached : Reaches initial exchange) :
    (∃ delivered queued, exchange.accepted = delivered ++ queued ∧
      ((∃ count, exchange.told = delivered.map .item ++ List.replicate count .done) ∨
        ∃ error count,
          exchange.told = delivered.map .item ++ .error error :: List.replicate count .done ∧
          exchange.failure = some error ∧ queued = []) ∧
      (exchange.withdrawn = false → exchange.Ended → queued = []) ∧
      (exchange.channel.next.1 = .pending → queued = [] ∧ exchange.channel.hasSender = true)) ∧
    (exchange.Ended → exchange.Over) ∧ exchange.cancel.Over := by
  have progress := progress_of_reaches reached
  have orderly := orderly_of_reaches reached
  refine ⟨?_, ?_, ?_⟩
  · have stopped := progress.terminated_of_ended
    cases progress with
    | running delivered queued ending count split held said _ _ whole =>
      refine ⟨delivered, queued, split, .inl ⟨count, said⟩,
        fun stays ended => (whole (stopped ended) stays).1, fun waits => ?_⟩
      obtain ⟨empty, sender⟩ := waiting_of_pending waits
      rw [empty] at held
      exact ⟨List.map_eq_nil_iff.mp (List.append_eq_nil_iff.mp held.symm).1, sender⟩
    | failed error count said given =>
      exact ⟨exchange.accepted, [], (List.append_nil _).symm, .inr ⟨error, count, said, given, rfl⟩,
        fun _ _ => rfl, fun waits => ⟨rfl, (waiting_of_pending waits).2⟩⟩
  · exact fun ended => over_of_terminated orderly (progress.terminated_of_ended ended)
  · have cancelled : exchange.cancel.channel.Orderly :=
      orderly.close true exchange.channel.hasReceiver exchange.channel.queue
    exact over_of_terminated cancelled rfl

/-- The second send waits for credit, and the error comes after it.  The consumer is told both items
and the error, and then nothing more. -/
theorem delivers_in_order_example :
    let sent := ((((start 1).send [0x61]).send [0x62]).request 1).resume 0 [0x62]
    let exchange := (((sent.fail (.remote "x")).next).next).next
    Reaches 1 exchange ∧
      exchange.told = [.item [0x61], .item [0x62], .error (.remote "x")] ∧ exchange.Over := by
  intro sent exchange
  have waits : Reaches 1 (((start 1).send [0x61]).send [0x62]) :=
    (Relation.ReflTransGen.single (.send [0x61] rfl)).tail (.send [0x62] rfl)
  have resumed : Reaches 1 sent := (waits.tail (.request 1 rfl)).tail (.resume (by decide))
  have reached : Reaches 1 exchange :=
    (((resumed.tail (.fail (.remote "x") rfl rfl)).tail (.next rfl)).tail (.next rfl)).tail
      (.next rfl)
  obtain ⟨_, silent, _⟩ := delivers_in_order reached
  refine ⟨reached, rfl, silent (.inr ⟨.remote "x", ?_⟩)⟩
  exact List.mem_cons_of_mem _ (List.mem_cons_of_mem _ List.mem_cons_self)

end FieldWire.Stream.Exchange
