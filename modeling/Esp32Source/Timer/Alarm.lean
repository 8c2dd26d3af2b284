import Esp32Source.Timer.Order

/-!
# Alarms between the calls

Wherever the alarms come, and however the calls of the drivers end, the two
programs stay on their order, as long as the callback is removed in front of
the queue.  The first program ignores the result of the removal.
-/

namespace Esp32Source.Timer

open Memory Machine

/-! ## The invariant -/

/-- The calls that are left, the queue that the calls so far have left, and
where the callback is registered. -/
structure Controls {Queue : Type} (view : Queue → QueueView)
    (appMain : List Statement) (itemSize : Nat) (done : List Statement)
    (waiting : List (List UInt8)) (app : App Queue) : Prop where
  whole : done ++ app.todo = appMain
  live : hasQueue done = true →
    ∃ queue, app.queue = .live queue ∧
      view queue = { length := 10, itemSize, items := waiting }
  unused : created done = false → waiting = []
  registered : app.registered = true → mayRun done = true

structure Follows {Queue : Type} (view : Queue → QueueView)
    (appMain : List Statement) (itemSize : Nat) (countVal : Buffer 8)
    (done : List Statement) (waiting : List (List UInt8))
    (app : App Queue) : Prop where
  controls : Controls view appMain itemSize done waiting app
  posted : Posted itemSize app.read app.received waiting
  shows :
    Shows appMain countVal done app.received app.countVal app.printed

section Steps

variable {Queue : Type} {queues : Queues Queue}
  {view : Queue → QueueView} {appMain done rest : List Statement}
  {itemSize : Nat} {countVal : Buffer 8}
  {waiting waitingNext : List (List UInt8)} {app next : App Queue}
  {statement : Statement}

/-- The next call is one of the program. -/
theorem Controls.isCall
    (controls : Controls view appMain itemSize done waiting app)
    (todo : app.todo = statement :: rest) : statement ∈ appMain := by
  rw [← controls.whole, todo]
  simp

/-- The next call fits behind the others. -/
theorem Controls.fits
    (controls : Controls view appMain itemSize done waiting app)
    (wellOrdered : WellOrdered itemSize appMain)
    (todo : app.todo = statement :: rest) :
    Fits done (some statement) := by
  have fits := wellOrdered.fits_of_whole controls.whole
  rw [todo] at fits
  exact fits

/-- A call that neither creates nor deletes the queue. -/
theorem Controls.advance
    (controls : Controls view appMain itemSize done waiting app)
    (todo : app.todo = statement :: rest)
    (noCreate : statement.isCreate = false)
    (noDelete : statement ≠ .queueDelete) (isRest : next.todo = rest)
    (live : hasQueue done = true →
      ∃ queue, next.queue = .live queue ∧
        view queue = { length := 10, itemSize, items := waitingNext })
    (unused : created done = false → waitingNext = [])
    (registered : next.registered = true →
      statement.registers (mayRun done) = true) :
    Controls view appMain itemSize (done ++ [statement]) waitingNext
      next where
  whole := by
    rw [isRest, List.append_assoc, List.singleton_append, ← todo]
    exact controls.whole
  live := by
    rw [hasQueue_concat done noCreate noDelete]
    exact live
  unused := by
    rw [created_concat, noCreate, Bool.or_false]
    exact unused
  registered := by
    rw [mayRun_concat]
    exact registered

/-- An alarm sends a count, if the callback is registered. -/
theorem Follows.alarm
    (follows : Follows view appMain itemSize countVal done waiting app)
    (documented : queues.Documented view)
    (wellOrdered : WellOrdered itemSize appMain) (small : itemSize ≤ 8)
    {callback : QueueHandle Queue → UInt64 →
      Except Fault (QueueHandle Queue × Bool)}
    (sends : ∀ handle count, callback handle count =
      sendFromISR queues handle (encode 8 count.toNat))
    (count : UInt64) :
    ∃ next output waitingNext,
      app.alarm callback count = .ok (next, output) ∧
        Follows view appMain itemSize countVal done waitingNext next := by
  rw [App.alarm]
  by_cases runs : (app.registered && !app.aborted) = true
  · have isRegistered := (Bool.and_eq_true_iff.mp runs).1
    have has := (wellOrdered.fits_of_whole follows.controls.whole).runs
      (follows.controls.registered isRegistered)
    obtain ⟨queue, isLive, isView⟩ := follows.controls.live has
    have isCreated : created done = true :=
      (Bool.and_eq_true_iff.mp has).1
    have sent : callback app.queue count = .ok
        (.live (queues.xQueueSendFromISR queue
          (encode 8 count.toNat)).1,
          (queues.xQueueSendFromISR queue (encode 8 count.toNat)).2) := by
      rw [sends, isLive]
      rfl
    have fits : (view queue).itemSize ≤ (encode 8 count.toNat).length := by
      rw [length_encode, isView]
      exact small
    rw [if_pos runs, sent]
    by_cases full : 10 ≤ waiting.length
    · refine ⟨_, _, waiting, rfl, ⟨follows.controls.whole, ?_,
        follows.controls.unused, follows.controls.registered⟩,
        follows.posted.overflow full count, follows.shows⟩
      intro _
      refine ⟨_, rfl, ?_⟩
      rw [documented.full, isView]
      rw [isView]
      exact full
    · have room : waiting.length < 10 := Nat.lt_of_not_le full
      refine ⟨_, _, waiting ++ [itemOf itemSize count], rfl,
        ⟨follows.controls.whole, ?_, ?_, follows.controls.registered⟩,
        follows.posted.send small count, follows.shows⟩
      · intro _
        refine ⟨_, rfl, ?_⟩
        rw [documented.sent queue _ fits, isView]
        · rfl
        · rw [isView]
          exact room
      · intro isUncreated
        rw [isCreated] at isUncreated
        cases isUncreated
  · rw [if_neg runs]
    exact ⟨app, none, waiting, rfl, follows⟩

/-- A driver's call that succeeds, or whose failure is ignored. -/
theorem Follows.driver
    (follows : Follows view appMain itemSize countVal done waiting app)
    {call : DriverCall} {checked : Bool}
    (todo : app.todo = .driver call checked :: rest) {registered : Bool}
    (runs : registered = true → call.registers (mayRun done) = true) :
    Follows view appMain itemSize countVal
      (done ++ [.driver call checked]) waiting
      { app with todo := rest, registered } where
  controls := follows.controls.advance todo rfl Statement.noConfusion rfl
    follows.controls.live follows.controls.unused runs
  posted := follows.posted
  shows := follows.shows.other rfl Statement.noConfusion

theorem Follows.create
    (follows : Follows view appMain itemSize countVal done waiting app)
    (documented : queues.Documented view)
    (wellOrdered : WellOrdered itemSize appMain) {length size : Nat}
    (todo : app.todo = .queueCreate length size :: rest) {queue : Queue}
    (isCreated : queues.xQueueCreate length size = some queue) :
    Follows view appMain itemSize countVal
      (done ++ [.queueCreate length size]) waiting
      { app with todo := rest, queue := .live queue } := by
  have isFirst := (follows.controls.fits wellOrdered todo).creates rfl
  obtain ⟨isLength, isSize⟩ :=
    wellOrdered.creates length size (follows.controls.isCall todo)
  have isView := documented.created length size queue isCreated
  refine ⟨⟨?_, ?_, ?_, ?_⟩, follows.posted,
    follows.shows.other rfl Statement.noConfusion⟩
  · have whole := follows.controls.whole
    rw [todo] at whole
    rw [List.append_assoc]
    exact whole
  · intro _
    refine ⟨queue, rfl, ?_⟩
    rw [isView, isLength, isSize, follows.controls.unused isFirst]
  · intro isUncreated
    rw [created_concat] at isUncreated
    simp [Statement.isCreate] at isUncreated
  · rw [mayRun_concat]
    exact follows.controls.registered

theorem Follows.delete
    (follows : Follows view appMain itemSize countVal done waiting app)
    (todo : app.todo = .queueDelete :: rest) :
    Follows view appMain itemSize countVal (done ++ [.queueDelete]) waiting
      { app with todo := rest, queue := .deleted } where
  controls :=
    { whole := by
        have whole := follows.controls.whole
        rw [todo] at whole
        rw [List.append_assoc]
        exact whole
      live := by
        intro has
        rw [hasQueue, deleted_concat] at has
        simp at has
      unused := by
        rw [created_concat]
        exact fun isUncreated =>
          follows.controls.unused (Bool.or_eq_false_iff.mp isUncreated).1
      registered := by
        rw [mayRun_concat]
        exact follows.controls.registered }
  posted := follows.posted
  shows := follows.shows.other rfl Statement.noConfusion

theorem Follows.print
    (follows : Follows view appMain itemSize countVal done waiting app)
    (wellOrdered : WellOrdered itemSize appMain)
    (todo : app.todo = .printCount :: rest) :
    Follows view appMain itemSize countVal (done ++ [.printCount]) waiting
      { app with
        todo := rest,
        printed := app.printed ++ [decode app.countVal.cells] } where
  controls := follows.controls.advance todo rfl Statement.noConfusion rfl
    follows.controls.live follows.controls.unused
    follows.controls.registered
  posted := follows.posted
  shows :=
    follows.shows.print
      ((follows.controls.fits wellOrdered todo).printing rfl)

/-- A receive takes the first item, waits, or gives up. -/
theorem Follows.receive
    (follows : Follows view appMain itemSize countVal done waiting app)
    (documented : queues.Documented view)
    (wellOrdered : WellOrdered itemSize appMain) (small : itemSize ≤ 8)
    {wait : QueueWait} (todo : app.todo = .queueReceive wait :: rest)
    (timesOut : Bool) :
    ∃ next doneNext waitingNext,
      app.receive queues rest wait timesOut = .ok next ∧
        Follows view appMain itemSize countVal doneNext waitingNext
          next := by
  have fits := follows.controls.fits wellOrdered todo
  have has := fits.needs (Or.inl rfl)
  obtain ⟨queue, isLive, isView⟩ := follows.controls.live has
  have isCreated : created done = true := (Bool.and_eq_true_iff.mp has).1
  have isCall := follows.controls.isCall todo
  cases waiting with
  | nil =>
      have isEmpty := documented.empty queue (by rw [isView])
      by_cases waits : wait = .portMaxDelay ∨ timesOut = false
      · refine ⟨app, done, [], ?_, follows⟩
        simp only [App.receive, isLive, QueueHandle.use, bind, Except.bind,
          isEmpty, if_pos waits]
        rfl
      · refine ⟨{ app with todo := rest }, done ++ [.queueReceive wait], [],
          ?_, follows.controls.advance todo rfl Statement.noConfusion rfl
            follows.controls.live follows.controls.unused ?_,
          follows.posted,
          follows.shows.timesOut isCall fun isMax => waits (Or.inl isMax)⟩
        · simp only [App.receive, isLive, QueueHandle.use, bind,
            Except.bind, isEmpty, if_neg waits]
          rfl
        · exact follows.controls.registered
  | cons item others =>
      obtain ⟨left, isReceived, isLeft⟩ :=
        documented.received queue item others (by rw [isView])
      have sizes := follows.posted.sizes
      rw [List.forall_mem_append, List.forall_mem_cons] at sizes
      have itemSizeIs := sizes.2.1
      obtain ⟨stored, isStored, cells⟩ :=
        app.countVal.store_of_fits 0 item (by omega)
      refine ⟨{ app with
          todo := rest, queue := .live left, countVal := stored,
          received := app.received ++ [item] },
        done ++ [.queueReceive wait], others, ?_,
        follows.controls.advance todo rfl Statement.noConfusion rfl ?_ ?_
          ?_,
        follows.posted.receive,
        follows.shows.receive wait ?_ fits.enough cells⟩
      · simp only [App.receive, isLive, QueueHandle.use, bind, Except.bind,
          isReceived, isStored]
        rfl
      · intro _
        exact ⟨left, rfl, by rw [isLeft, isView]⟩
      · intro isUncreated
        rw [isCreated] at isUncreated
        cases isUncreated
      · exact follows.controls.registered
      · intro earlier member
        rw [itemSizeIs]
        exact sizes.1 earlier member

end Steps

/-! ## Every interleaving -/

section Runs

variable {Queue : Type} {queues : Queues Queue}
  {view : Queue → QueueView} {appMain done : List Statement}
  {itemSize : Nat} {countVal : Buffer 8} {waiting : List (List UInt8)}
  {app : App Queue} {queue : Queue} {program : Program Queue}

theorem Follows.task
    (follows : Follows view appMain itemSize countVal done waiting app)
    (documented : queues.Documented view)
    (wellOrdered : WellOrdered itemSize appMain) (small : itemSize ≤ 8)
    (isCreated : queues.xQueueCreate 10 itemSize = some queue)
    (answer : TaskAnswer)
    (removes : ∀ checked rest,
      app.todo = .driver .timerIsrCallbackRemove checked :: rest →
        answer.succeeds = true) :
    ∃ next doneNext waitingNext,
      app.task queues answer = .ok next ∧
        Follows view appMain itemSize countVal doneNext waitingNext
          next := by
  rw [App.task]
  by_cases aborted : app.aborted = true
  · rw [if_pos aborted]
    exact ⟨app, done, waiting, rfl, follows⟩
  rw [if_neg aborted]
  cases todo : app.todo with
  | nil =>
      exact ⟨app, done, waiting, rfl, follows⟩
  | cons statement rest =>
      cases statement with
      | queueCreate length size =>
          obtain ⟨rfl, rfl⟩ :=
            wellOrdered.creates length size (follows.controls.isCall todo)
          dsimp only
          rw [isCreated]
          exact ⟨_, _, waiting, rfl,
            follows.create documented wellOrdered todo isCreated⟩
      | driver call checked =>
          dsimp only
          cases succeeds : answer.succeeds with
          | true =>
              rw [if_pos rfl]
              exact ⟨_, _, waiting, rfl, follows.driver todo
                (call.registers_imp follows.controls.registered)⟩
          | false =>
              rw [if_neg Bool.false_ne_true]
              cases checked with
              | true =>
                  have whole : done ++ .driver call true :: rest =
                      appMain := by
                    rw [← todo]
                    exact follows.controls.whole
                  exact ⟨_, done, waiting, rfl,
                    ⟨whole, follows.controls.live,
                      follows.controls.unused,
                      follows.controls.registered⟩,
                    follows.posted, follows.shows⟩
              | false =>
                  have noRemoval : call ≠ .timerIsrCallbackRemove := by
                    intro isRemoval
                    subst isRemoval
                    have removed := removes false rest todo
                    rw [succeeds] at removed
                    cases removed
                  have runs (isRegistered : app.registered = true) :
                      call.registers (mayRun done) = true := by
                    rw [follows.controls.registered isRegistered]
                    exact DriverCall.registers_true noRemoval
                  exact ⟨_, _, waiting, rfl, follows.driver todo runs⟩
      | queueReceive wait =>
          exact follows.receive documented wellOrdered small todo
            answer.timesOut
      | printCount =>
          exact ⟨_, _, waiting, rfl, follows.print wellOrdered todo⟩
      | queueDelete =>
          have fits := follows.controls.fits wellOrdered todo
          obtain ⟨queue, isLive, _⟩ :=
            follows.controls.live (fits.needs (Or.inr rfl))
          refine ⟨_, _, waiting, ?_, follows.delete todo⟩
          dsimp only
          rw [isLive]
          rfl

/-- The removal of the callback, whose result the program ignores, does not
fail. -/
def RemovesCallback (queues : Queues Queue) (program : Program Queue)
    (countVal : Buffer 8) (history : List AppEvent) (event : AppEvent) :
    Prop :=
  ∀ app checked rest answer,
    appAfter queues program countVal history = .ok app →
      app.todo = .driver .timerIsrCallbackRemove checked :: rest →
        event = .task answer → answer.succeeds = true

/-- The callback of the program sends the eight bytes of its count. -/
def Program.SendsCount (program : Program Queue) (queues : Queues Queue) :
    Prop :=
  ∀ handle count, program.timerIsrCallback handle count =
    sendFromISR queues handle (encode 8 count.toNat)

theorem appAfter_follows (documented : queues.Documented view)
    (wellOrdered : WellOrdered itemSize program.appMain)
    (small : itemSize ≤ 8) (sends : program.SendsCount queues)
    (isCreated : queues.xQueueCreate 10 itemSize = some queue)
    {history : List AppEvent}
    (removes :
      AtEveryStep (RemovesCallback queues program countVal) history) :
    ∃ app, appAfter queues program countVal history = .ok app ∧
      ∃ done waiting,
        Follows view program.appMain itemSize countVal done waiting app := by
  have initial : Follows view program.appMain itemSize countVal [] []
      (App.begin program countVal) :=
    { controls :=
        { whole := rfl
          live := fun has => Bool.noConfusion has
          unused := fun _ => rfl
          registered := fun isRegistered => Bool.noConfusion isRegistered }
      posted :=
        { sizes := List.forall_mem_nil _
          order := rfl }
      shows :=
        { holds := rfl
          taken := Nat.le_refl 0
          complete := fun _ => rfl
          count := rfl
          inOrder := fun _ => rfl
          waits := fun _ => List.forall_mem_nil _ } }
  refine after_total_of_steps
    (fun _ app => ∃ done waiting,
      Follows view program.appMain itemSize countVal done waiting app)
    (RemovesCallback queues program countVal) ⟨[], [], initial⟩ ?_ removes
  intro front event app reached related removesHere
  obtain ⟨done, waiting, follows⟩ := related
  cases event with
  | alarm count =>
      obtain ⟨next, output, waitingNext, ran, followsNext⟩ :=
        follows.alarm documented wellOrdered small sends count
      exact ⟨next, output, ran, done, waitingNext, followsNext⟩
  | task answer =>
      obtain ⟨next, doneNext, waitingNext, stepped, followsNext⟩ :=
        follows.task documented wellOrdered small isCreated answer
          fun checked rest todo =>
            removesHere app checked rest answer reached todo rfl
      refine ⟨next, none, ?_, doneNext, waitingNext, followsNext⟩
      rw [App.step, stepped]
      rfl

/-- Without a queue there is nothing to receive, and so nothing to print. -/
structure Idles (appMain done : List Statement) (app : App Queue) :
    Prop where
  whole : done ++ app.todo = appMain
  noQueue : ∀ queue, app.queue ≠ .live queue
  noReceive : receives done = 0
  nothing : app.printed = []

theorem QueueHandle.use_eq_ok {handle : QueueHandle Queue}
    (used : handle.use = .ok queue) : handle = .live queue := by
  cases handle with
  | live found =>
      cases used
      rfl
  | null | deleted =>
      cases used

theorem Idles.alarm (idles : Idles appMain done app)
    (sends : program.SendsCount queues) {count : UInt64}
    {next : App Queue} {output : Option Bool}
    (ran : app.alarm program.timerIsrCallback count = .ok (next, output)) :
    Idles appMain done next := by
  rw [App.alarm] at ran
  by_cases runs : (app.registered && !app.aborted) = true
  · rw [if_pos runs, sends] at ran
    obtain ⟨sent, isSent, _⟩ := bind_eq_ok_iff.mp ran
    obtain ⟨queue, used, _⟩ := bind_eq_ok_iff.mp isSent
    exact absurd (QueueHandle.use_eq_ok used) (idles.noQueue queue)
  · rw [if_neg runs] at ran
    cases ran
    exact idles

theorem Idles.task (idles : Idles appMain done app)
    (wellOrdered : WellOrdered itemSize appMain)
    (noQueue : queues.xQueueCreate 10 itemSize = none)
    {answer : TaskAnswer} {next : App Queue}
    (stepped : app.task queues answer = .ok next) :
    ∃ doneNext, Idles appMain doneNext next := by
  rw [App.task] at stepped
  by_cases aborted : app.aborted = true
  · rw [if_pos aborted] at stepped
    cases stepped
    exact ⟨done, idles⟩
  rw [if_neg aborted] at stepped
  cases todo : app.todo with
  | nil =>
      rw [todo] at stepped
      cases stepped
      exact ⟨done, idles⟩
  | cons statement rest =>
      rw [todo] at stepped
      have whole : done ++ statement :: rest = appMain := by
        rw [← todo]
        exact idles.whole
      have isCall : statement ∈ appMain := by
        rw [← whole]
        simp
      rw [List.append_cons] at whole
      have still (noReceive : statement.isReceive = false) :
          receives (done ++ [statement]) = 0 := by
        rw [receives_concat, noReceive, idles.noReceive]
        rfl
      cases statement with
      | queueCreate length size =>
          obtain ⟨rfl, rfl⟩ := wellOrdered.creates length size isCall
          dsimp only at stepped
          rw [noQueue] at stepped
          cases stepped
          refine ⟨_, whole, ?_, still rfl, idles.nothing⟩
          intro queue isLive
          cases isLive
      | driver call checked =>
          dsimp only at stepped
          split at stepped
          · cases stepped
            exact ⟨_, whole, idles.noQueue, still rfl, idles.nothing⟩
          · split at stepped
            · cases stepped
              rw [← List.append_cons] at whole
              exact ⟨done, whole, idles.noQueue, idles.noReceive,
                idles.nothing⟩
            · cases stepped
              exact ⟨_, whole, idles.noQueue, still rfl, idles.nothing⟩
      | queueReceive wait =>
          obtain ⟨queue, used, _⟩ := bind_eq_ok_iff.mp stepped
          exact absurd (QueueHandle.use_eq_ok used) (idles.noQueue queue)
      | printCount =>
          have fits := wellOrdered.fits_of_whole idles.whole
          rw [todo] at fits
          have oneReceive := fits.printing rfl
          have noReceive := idles.noReceive
          omega
      | queueDelete =>
          obtain ⟨queue, used, _⟩ := bind_eq_ok_iff.mp stepped
          exact absurd (QueueHandle.use_eq_ok used) (idles.noQueue queue)

theorem printed_of_noQueue
    (wellOrdered : WellOrdered itemSize program.appMain)
    (sends : program.SendsCount queues)
    (noQueue : queues.xQueueCreate 10 itemSize = none)
    {history : List AppEvent}
    (reached : appAfter queues program countVal history = .ok app) :
    app.printed = [] := by
  obtain ⟨done, idles⟩ : ∃ done, Idles program.appMain done app := by
    refine after_induction
      (motive := fun _ app => ∃ done, Idles program.appMain done app)
      ?_ ?_ reached
    · refine ⟨[], rfl, ?_, rfl, rfl⟩
      intro queue isLive
      cases isLive
    · intro front event app next output _ related stepped
      obtain ⟨done, idles⟩ := related
      cases event with
      | alarm count =>
          exact ⟨done, idles.alarm sends stepped⟩
      | task answer =>
          obtain ⟨moved, isMoved, isNext⟩ := bind_eq_ok_iff.mp stepped
          cases isNext
          exact idles.task wellOrdered noQueue isMoved
  exact idles.nothing

end Runs

/-! ## The two programs -/

section Programs

variable {Queue : Type} {queues : Queues Queue}
  {view : Queue → QueueView} {program : Program Queue}
  {countVal : Buffer 8} {history : List AppEvent}

theorem testTimer_sendsCount :
    (testTimer queues).SendsCount queues := by
  intro handle count
  rfl

theorem gptimer_sendsCount : (gptimer queues).SendsCount queues := by
  intro handle count
  rfl

theorem prints_le_of_whole {appMain done todo : List Statement}
    (whole : done ++ todo = appMain) : prints done ≤ prints appMain := by
  rw [← whole, prints, prints, List.countP_append]
  exact Nat.le_add_right _ _

/-- Where each receive has brought an item, the counts are printed in the order
in which the callback has read them. -/
theorem Follows.printed_eq {appMain done : List Statement} {itemSize : Nat}
    {waiting : List (List UInt8)} {app : App Queue}
    (follows : Follows view appMain itemSize countVal done waiting app)
    (enough : prints done ≤ receives done)
    (allTaken : app.received.length = receives done)
    (few : prints done ≤ 10) :
    app.printed = (app.read.take app.printed.length).map
      fun count => shown countVal (itemOf itemSize count) := by
  rw [follows.shows.count, follows.shows.inOrder allTaken,
    follows.posted.takes (by omega) few, List.map_map]
  rfl

/-- A program without a removal has none that fails. -/
theorem removesCallback_of_not_mem
    (noRemoval : ∀ checked,
      .driver .timerIsrCallbackRemove checked ∉ program.appMain)
    (documented : queues.Documented view) {itemSize : Nat}
    (wellOrdered : WellOrdered itemSize program.appMain)
    (small : itemSize ≤ 8) (sends : program.SendsCount queues)
    {queue : Queue}
    (isCreated : queues.xQueueCreate 10 itemSize = some queue) :
    AtEveryStep (RemovesCallback queues program countVal) history := by
  induction history using List.reverseRecOn with
  | nil =>
      exact atEveryStep_nil _
  | append_singleton history event inductionHypothesis =>
      rw [atEveryStep_concat_iff]
      refine ⟨inductionHypothesis, ?_⟩
      intro app checked rest answer reached todo
      obtain ⟨found, isFound, done, waiting, follows⟩ :=
        appAfter_follows documented wellOrdered small sends isCreated
          inductionHypothesis
      cases reached.symm.trans isFound
      exact absurd (follows.controls.isCall todo) (noRemoval checked)

end Programs

/-! ## Two alarms -/

/-- A step of the task whose driver's call succeeds. -/
def succeeding : AppEvent :=
  .task { succeeds := true, timesOut := false }

def AppEvent.fails : AppEvent → Bool
  | .alarm _ => false
  | .task answer => !answer.succeeds

theorem removesCallback_of_succeeding {Queue : Type}
    {queues : Queues Queue} {program : Program Queue} {countVal : Buffer 8}
    {history : List AppEvent}
    (succeed : ∀ event, event ∈ history → event.fails = false) :
    AtEveryStep (RemovesCallback queues program countVal) history := by
  intro front event behind shape app checked rest answer _ _ isTask
  have isMember : event ∈ history := by
    rw [shape]
    simp
  have succeeds := succeed event isMember
  rw [isTask] at succeeds
  simpa [AppEvent.fails] using succeeds

/-- The second count has more than 32 bits. -/
def twoAlarms : List AppEvent :=
  List.replicate 14 succeeding ++ .alarm 500000 ::
    List.replicate 5 succeeding ++ .alarm 0x100000007 ::
      List.replicate 5 succeeding

example :
    (appAfter listQueues (testTimer listQueues) (Buffer.zero 8)
      twoAlarms).map (fun app => (app.todo, app.printed)) =
        .ok ([], [500000, 7]) := by
  decide +kernel

-- a removal that fails is not noticed, and the next alarm sends to the queue
-- that was deleted meanwhile
example :
    (appAfter listQueues (testTimer listQueues) (Buffer.zero 8)
      (List.replicate 14 succeeding ++ .alarm 1 ::
        List.replicate 5 succeeding ++ .alarm 2 ::
          List.replicate 2 succeeding ++
            .task { succeeds := false, timesOut := false } ::
              List.replicate 2 succeeding ++ [.alarm 3])).map App.printed =
      .error .deadBlock := by
  decide +kernel

/-- The wait ends in front of the alarm. -/
def lateAlarm : List AppEvent :=
  List.replicate 10 succeeding ++
    [.task { succeeds := true, timesOut := true }, .alarm 1000000,
      succeeding]

end Esp32Source.Timer
