import Esp32Source.Timer.Program

/-!
# The order of the calls

In both programs there is a queue wherever the callback may run and wherever a
call needs one, and each print has a receive of its own in front of it.  As
there are fewer receives than places in the queue, what is received are the
first counts that were sent, and what is printed are these.
-/

namespace Esp32Source.Timer

open Memory

/-! ## Order of the calls -/

def Statement.isCreate : Statement → Bool
  | .queueCreate _ _ => true
  | _ => false

def Statement.isReceive : Statement → Bool
  | .queueReceive _ => true
  | _ => false

/-- The registration behind calls that succeed. -/
def Statement.registers (registered : Bool) : Statement → Bool
  | .driver call _ => call.registers registered
  | _ => registered

def created (done : List Statement) : Bool :=
  done.any Statement.isCreate

def deleted (done : List Statement) : Bool :=
  done.any (· = .queueDelete)

/-- The callback may run behind these calls. -/
def mayRun (done : List Statement) : Bool :=
  done.foldl Statement.registers false

def receives (done : List Statement) : Nat :=
  done.countP Statement.isReceive

def prints (done : List Statement) : Nat :=
  done.countP (· = .printCount)

/-- The queue is there behind these calls, if it was created. -/
def hasQueue (done : List Statement) : Bool :=
  created done && !deleted done

/-- Between two calls: where the callback may run and where a call needs it
there is a queue, no second one is created, and each print has a receive of
its own in front of it. -/
structure Fits (done : List Statement) (next : Option Statement) : Prop where
  runs : mayRun done = true → hasQueue done = true
  needs : next.any Statement.isReceive = true ∨ next = some .queueDelete →
    hasQueue done = true
  creates : next.any Statement.isCreate = true → created done = false
  printing : next = some .printCount → receives done = prints done + 1
  enough : prints done ≤ receives done

instance (done : List Statement) (next : Option Statement) :
    Decidable (Fits done next) :=
  decidable_of_iff
    ((mayRun done = true → hasQueue done = true) ∧
      (next.any Statement.isReceive = true ∨ next = some .queueDelete →
        hasQueue done = true) ∧
      (next.any Statement.isCreate = true → created done = false) ∧
      (next = some .printCount → receives done = prints done + 1) ∧
      prints done ≤ receives done)
    ⟨fun ⟨runs, needs, creates, printing, enough⟩ =>
      ⟨runs, needs, creates, printing, enough⟩,
    fun fits =>
      ⟨fits.runs, fits.needs, fits.creates, fits.printing, fits.enough⟩⟩

/-- The calls fit everywhere, and the queue has ten places for items of this
size. -/
structure WellOrdered (itemSize : Nat) (appMain : List Statement) :
    Prop where
  fits : ∀ count, count ≤ appMain.length →
    Fits (appMain.take count) appMain[count]?
  creates : ∀ length size, .queueCreate length size ∈ appMain →
    length = 10 ∧ size = itemSize

theorem testTimer_wellOrdered : WellOrdered 4 TestTimer.appMain where
  fits := by
    decide
  creates := by
    intro length size member
    simpa [TestTimer.appMain] using member

theorem gptimer_wellOrdered : WellOrdered 8 Gptimer.appMain where
  fits := by
    decide
  creates := by
    intro length size member
    simpa [Gptimer.appMain] using member

theorem WellOrdered.fits_of_whole {itemSize : Nat}
    {appMain done todo : List Statement}
    (wellOrdered : WellOrdered itemSize appMain)
    (whole : done ++ todo = appMain) : Fits done todo.head? := by
  have inside : done.length ≤ appMain.length := by
    rw [← whole, List.length_append]
    exact Nat.le_add_right _ _
  have fits := wellOrdered.fits done.length inside
  rw [← whole, List.take_left, List.getElem?_append_right (Nat.le_refl _),
    Nat.sub_self, ← List.head?_eq_getElem?] at fits
  exact fits

section Concat

variable (done : List Statement) (statement : Statement)

theorem created_concat :
    created (done ++ [statement]) =
      (created done || statement.isCreate) := by
  simp [created]

theorem deleted_concat :
    deleted (done ++ [statement]) =
      (deleted done || decide (statement = .queueDelete)) := by
  simp [deleted]

theorem mayRun_concat :
    mayRun (done ++ [statement]) = statement.registers (mayRun done) := by
  rw [mayRun, List.foldl_append]
  rfl

theorem receives_concat :
    receives (done ++ [statement]) =
      receives done + if statement.isReceive then 1 else 0 := by
  rw [receives, List.countP_append, List.countP_singleton, receives]

theorem prints_concat :
    prints (done ++ [statement]) =
      prints done + if statement = .printCount then 1 else 0 := by
  rw [prints, List.countP_append, List.countP_singleton, prints]
  simp

theorem hasQueue_concat {statement : Statement}
    (noCreate : statement.isCreate = false)
    (noDelete : statement ≠ .queueDelete) :
    hasQueue (done ++ [statement]) = hasQueue done := by
  rw [hasQueue, created_concat, deleted_concat, noCreate,
    decide_eq_false noDelete, Bool.or_false, Bool.or_false, hasQueue]

end Concat

/-- A call that succeeds registers nothing that may not run. -/
theorem DriverCall.registers_imp {registered runs : Bool}
    (imp : registered = true → runs = true) (call : DriverCall)
    (isRegistered : call.registers registered = true) :
    call.registers runs = true := by
  cases call <;>
    first
      | exact imp isRegistered
      | exact isRegistered

/-- Only a removal ends a registration. -/
theorem DriverCall.registers_true {call : DriverCall}
    (noRemoval : call ≠ .timerIsrCallbackRemove) :
    call.registers true = true := by
  cases call <;>
    first
      | rfl
      | exact absurd rfl noRemoval

/-! ## What was sent and received -/

/-- The bytes of a count that a queue of such items takes. -/
def itemOf (itemSize : Nat) (count : UInt64) : List UInt8 :=
  (encode 8 count.toNat).take itemSize

theorem length_itemOf {itemSize : Nat} (small : itemSize ≤ 8)
    (count : UInt64) : (itemOf itemSize count).length = itemSize := by
  rw [itemOf, List.length_take, length_encode]
  omega

/-- What is printed of an item. -/
def shown (countVal : Buffer 8) (item : List UInt8) : Nat :=
  decode (overlay item countVal.cells)

/-- The items that were received and those that wait begin with the first ten
that were sent. -/
structure Posted (itemSize : Nat) (read : List UInt64)
    (received waiting : List (List UInt8)) : Prop where
  sizes : ∀ item, item ∈ received ++ waiting → item.length = itemSize
  order : (received ++ waiting).take 10 =
    (read.map (itemOf itemSize)).take 10

theorem take_concat_of_take_eq {α : Type} {left right : List α}
    {count : Nat} (same : left.take count = right.take count) (last : α) :
    (left ++ [last]).take count = (right ++ [last]).take count := by
  have lengths := congrArg List.length same
  rw [List.length_take, List.length_take] at lengths
  by_cases short : left.length < count
  · rw [List.take_of_length_le (Nat.le_of_lt short),
      List.take_of_length_le (by omega)] at same
    rw [same]
  · rw [List.take_append_of_le_length (by omega),
      List.take_append_of_le_length (by omega), same]

section Posted

variable {itemSize : Nat} {read : List UInt64}
  {received waiting rest : List (List UInt8)} {item : List UInt8}

theorem Posted.send (posted : Posted itemSize read received waiting)
    (small : itemSize ≤ 8) (count : UInt64) :
    Posted itemSize (read ++ [count]) received
      (waiting ++ [itemOf itemSize count]) where
  sizes := by
    rw [← List.append_assoc, List.forall_mem_append,
      List.forall_mem_singleton]
    exact ⟨posted.sizes, length_itemOf small count⟩
  order := by
    rw [← List.append_assoc, List.map_append, List.map_singleton]
    exact take_concat_of_take_eq posted.order _

/-- An item that finds the queue full is not among the first ten. -/
theorem Posted.overflow (posted : Posted itemSize read received waiting)
    (full : 10 ≤ waiting.length) (count : UInt64) :
    Posted itemSize (read ++ [count]) received waiting where
  sizes := posted.sizes
  order := by
    have lengths := congrArg List.length posted.order
    rw [List.length_take, List.length_take, List.length_append] at lengths
    have enough : 10 ≤ (read.map (itemOf itemSize)).length := by
      omega
    rw [List.map_append, List.take_append_of_le_length enough]
    exact posted.order

theorem Posted.receive
    (posted : Posted itemSize read received (item :: rest)) :
    Posted itemSize read (received ++ [item]) rest where
  sizes := by
    rw [List.append_assoc]
    exact posted.sizes
  order := by
    rw [List.append_assoc]
    exact posted.order

/-- What was received are the first counts that the callback has read. -/
theorem Posted.takes (posted : Posted itemSize read received waiting)
    {count : Nat} (inside : count ≤ received.length) (few : count ≤ 10) :
    received.take count = (read.take count).map (itemOf itemSize) :=
  calc
    received.take count
      = ((received ++ waiting).take 10).take count := by
        rw [List.take_take, Nat.min_eq_left few,
          List.take_append_of_le_length inside]
    _ = ((read.map (itemOf itemSize)).take 10).take count := by
        rw [posted.order]
    _ = (read.take count).map (itemOf itemSize) := by
        rw [List.take_take, Nat.min_eq_left few, List.map_take]

end Posted

/-! ## What the variable holds -/

/-- The variable `current` holds the last item that was received, over what it
held at first, and what was printed are the items that were received. -/
structure Shows (appMain : List Statement) (countVal : Buffer 8)
    (done : List Statement) (received : List (List UInt8))
    (current : Buffer 8) (printed : List Nat) : Prop where
  holds : current.cells = overlay (received.getLastD []) countVal.cells
  taken : received.length ≤ receives done
  complete :
    (∀ wait, .queueReceive wait ∈ appMain → wait = .portMaxDelay) →
      received.length = receives done
  count : printed.length = prints done
  inOrder : received.length = receives done →
    printed = (received.take (prints done)).map (shown countVal)
  waits : received = [] →
    ∀ value, value ∈ printed → value = decode countVal.cells

section Shows

variable {appMain done : List Statement} {countVal current : Buffer 8}
  {received : List (List UInt8)} {printed : List Nat}

/-- A call that neither receives nor prints. -/
theorem Shows.other
    (shows : Shows appMain countVal done received current printed)
    {statement : Statement} (noReceive : statement.isReceive = false)
    (noPrint : statement ≠ .printCount) :
    Shows appMain countVal (done ++ [statement]) received current
      printed := by
  have sameReceives : receives (done ++ [statement]) = receives done := by
    rw [receives_concat, noReceive]
    rfl
  have samePrints : prints (done ++ [statement]) = prints done := by
    rw [prints_concat, if_neg noPrint]
    rfl
  refine ⟨shows.holds, ?_, ?_, ?_, ?_, shows.waits⟩
  · rw [sameReceives]
    exact shows.taken
  · rw [sameReceives]
    exact shows.complete
  · rw [samePrints]
    exact shows.count
  · rw [sameReceives, samePrints]
    exact shows.inOrder

/-- A receive whose time is over. -/
theorem Shows.timesOut
    (shows : Shows appMain countVal done received current printed)
    {wait : QueueWait} (isCall : .queueReceive wait ∈ appMain)
    (limited : wait ≠ .portMaxDelay) :
    Shows appMain countVal (done ++ [.queueReceive wait]) received current
      printed := by
  have oneMore : receives (done ++ [.queueReceive wait]) =
      receives done + 1 :=
    receives_concat done _
  have samePrints : prints (done ++ [.queueReceive wait]) = prints done := by
    rw [prints_concat, if_neg Statement.noConfusion]
    rfl
  have taken := shows.taken
  refine ⟨shows.holds, ?_, ?_, ?_, ?_, shows.waits⟩
  · omega
  · intro forever
    exact absurd (forever wait isCall) limited
  · rw [samePrints]
    exact shows.count
  · intro allTaken
    omega

/-- An item is copied over the front of the variable. -/
theorem Shows.receive
    (shows : Shows appMain countVal done received current printed)
    (wait : QueueWait) {item : List UInt8} {stored : Buffer 8}
    (sizes : ∀ earlier, earlier ∈ received →
      earlier.length = item.length)
    (fewPrints : prints done ≤ receives done)
    (isStored : stored.cells = patch 0 item current.cells) :
    Shows appMain countVal (done ++ [.queueReceive wait])
      (received ++ [item]) stored printed := by
  have oneMore : receives (done ++ [.queueReceive wait]) =
      receives done + 1 :=
    receives_concat done _
  have samePrints : prints (done ++ [.queueReceive wait]) = prints done := by
    rw [prints_concat, if_neg Statement.noConfusion]
    rfl
  have covers : received.getLastD [] = [] ∨
      (received.getLastD []).length = item.length := by
    rcases List.eq_nil_or_concat received with
      isNil | ⟨front, last, isConcat⟩
    · rw [isNil]
      exact Or.inl rfl
    · rw [List.concat_eq_append] at isConcat
      rw [isConcat, List.getLastD_concat]
      apply Or.inr
      apply sizes
      rw [isConcat]
      simp
  refine ⟨?_, ?_, ?_, ?_, ?_, ?_⟩
  · rw [isStored, patch_zero, shows.holds, overlay_overlay_of_length covers,
      List.getLastD_concat]
  · rw [oneMore, List.length_append]
    exact Nat.succ_le_succ shows.taken
  · intro forever
    rw [oneMore, List.length_append, shows.complete forever]
    rfl
  · rw [samePrints]
    exact shows.count
  · intro allTaken
    rw [oneMore, List.length_append] at allTaken
    have before : received.length = receives done := Nat.succ.inj allTaken
    rw [shows.inOrder before, samePrints,
      List.take_append_of_le_length (by omega)]
  · intro isNil
    simp at isNil

/-- A print shows the item that was received in front of it. -/
theorem Shows.print
    (shows : Shows appMain countVal done received current printed)
    (oneMore : receives done = prints done + 1) :
    Shows appMain countVal (done ++ [.printCount]) received current
      (printed ++ [decode current.cells]) := by
  have sameReceives : receives (done ++ [.printCount]) = receives done :=
    receives_concat done _
  have morePrints : prints (done ++ [.printCount]) = prints done + 1 :=
    prints_concat done _
  refine ⟨shows.holds, ?_, ?_, ?_, ?_, ?_⟩
  · rw [sameReceives]
    exact shows.taken
  · rw [sameReceives]
    exact shows.complete
  · rw [morePrints, List.length_append, shows.count]
    rfl
  · intro allTaken
    rw [sameReceives] at allTaken
    have before := shows.inOrder allTaken
    rcases List.eq_nil_or_concat received with
      isNil | ⟨front, last, isConcat⟩
    · rw [isNil, List.length_nil] at allTaken
      omega
    · rw [List.concat_eq_append] at isConcat
      subst isConcat
      have holds := shows.holds
      rw [List.getLastD_concat] at holds
      rw [List.length_append, List.length_singleton] at allTaken
      have earlier : front.length = prints done := by
        omega
      rw [List.take_left' earlier] at before
      rw [morePrints, before, holds,
        List.take_of_length_le (by
          rw [List.length_append, List.length_singleton]
          omega),
        List.map_append, List.map_singleton]
      rfl
  · intro isNil
    have holds := shows.holds
    rw [isNil] at holds
    rw [List.forall_mem_append, List.forall_mem_singleton]
    exact ⟨shows.waits isNil, congrArg decode holds⟩

end Shows

/-! ## What is printed of a count -/

/-- A variable that was zero shows the bytes that the item has. -/
theorem shown_itemOf_zero {itemSize : Nat} (small : itemSize ≤ 8)
    (count : UInt64) :
    shown (Buffer.zero 8) (itemOf itemSize count) =
      count.toNat % 256 ^ itemSize := by
  have zeros : (Buffer.zero 8).cells.drop itemSize =
      List.replicate (8 - itemSize) 0 :=
    List.drop_replicate
  rw [shown, overlay, length_itemOf small, zeros, decode_append_zeros,
    itemOf, decode_take_encode small]

/-- An item as large as the variable is shown whole. -/
theorem shown_itemOf_whole (countVal : Buffer 8) (count : UInt64) :
    shown countVal (itemOf 8 count) = count.toNat := by
  rw [shown, overlay, length_itemOf (Nat.le_refl 8),
    List.drop_of_length_le (Nat.le_of_eq countVal.length_cells),
    List.append_nil, itemOf, decode_take_encode (Nat.le_refl 8)]
  exact Nat.mod_eq_of_lt count.toNat_lt

end Esp32Source.Timer
