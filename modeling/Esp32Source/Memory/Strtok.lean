import Esp32Source.Memory.CString

/-!
# Tokens of a string

`strtok` cuts a string into tokens in place: it stores a NUL over the
delimiter behind a token.  The position from which the next call goes on is
part of its result here, where the C library keeps it in a static variable.

`strsep` does the same without skipping delimiters in front of a token, so
that it also returns empty tokens.  Its position is the caller's own pointer,
which becomes null behind the last token.
-/

namespace Esp32Source.Memory

/-- What a call of `strtok` leaves: the buffer with the delimiter behind the
token overwritten, the position of the token, and the position at which the
next call goes on. -/
structure Strtok (size : Nat) where
  buffer : Buffer size
  token : Option Nat
  saved : Nat

/-- `strtok` from a position: skip delimiters, then take bytes up to the next
delimiter or the end of the string. -/
def strtok {size : Nat} (delimiters : List UInt8) (buffer : Buffer size)
    (position : Nat) : Except Fault (Strtok size) :=
  let first :=
    position +
      ((buffer.cells.drop position).takeWhile (· ∈ delimiters)).length
  match buffer.cells[first]? with
  | none => .error .outOfBounds
  | some head =>
      if head = 0 then .ok { buffer, token := none, saved := first }
      else
        let last :=
          first +
            ((buffer.cells.drop first).takeWhile
              fun byte => byte ≠ 0 ∧ byte ∉ delimiters).length
        match buffer.cells[last]? with
        | none => .error .outOfBounds
        | some stop =>
            if stop = 0 then
              .ok { buffer, token := some first, saved := last }
            else do
              let cut ← buffer.store last [0]
              return { buffer := cut, token := some first,
                       saved := last + 1 }

/-! ## The end of a token -/

section TokenEnd

variable {size : Nat} {delimiters : List UInt8} {buffer : Buffer size}
variable {front token rest : List UInt8} {stop : UInt8}

/-- The scan for the end of a token takes the token. -/
theorem takeWhile_token
    (inside : ∀ byte, byte ∈ token → byte ≠ 0 ∧ byte ∉ delimiters)
    (ends : stop = 0 ∨ stop ∈ delimiters) :
    (token ++ stop :: rest).takeWhile
      (fun byte => byte ≠ 0 ∧ byte ∉ delimiters) = token := by
  rw [List.takeWhile_append_of_pos
    fun byte member => by simpa using inside byte member,
    List.takeWhile_cons_of_neg, List.append_nil]
  rcases ends with isNul | isDelimiter
  · simp [isNul]
  · simp [isDelimiter]

theorem getElem?_behind_token
    (shape : buffer.cells = front ++ (token ++ stop :: rest)) :
    buffer.cells[front.length + token.length]? = some stop := by
  rw [shape, ← List.append_assoc, List.getElem?_append_right
    (by rw [List.length_append]), List.length_append, Nat.sub_self]
  rfl

/-- A NUL over the byte behind a token. -/
theorem store_behind_token
    (shape : buffer.cells = front ++ (token ++ stop :: rest)) :
    ∃ cut,
      buffer.store (front.length + token.length) [0] = .ok cut ∧
        cut.cells = front ++ (token ++ 0 :: rest) := by
  have fits : front.length + token.length + [(0 : UInt8)].length ≤ size := by
    rw [← buffer.length_cells, shape]
    simp only [List.length_append, List.length_cons, List.length_nil]
    omega
  obtain ⟨cut, stored, cells⟩ :=
    buffer.store_of_fits (front.length + token.length) [0] fits
  refine ⟨cut, stored, ?_⟩
  rw [cells, shape, ← List.append_assoc, ← List.append_assoc,
    ← List.length_append, patch_append_left]
  rfl

end TokenEnd

/-- A token that a delimiter or the NUL ends is found where it starts, and a
NUL stands behind it afterwards. -/
theorem strtok_token {size : Nat} {delimiters : List UInt8}
    {buffer : Buffer size} {front token rest : List UInt8} {stop : UInt8}
    (shape : buffer.cells = front ++ (token ++ stop :: rest))
    (nonempty : token ≠ [])
    (inside : ∀ byte, byte ∈ token → byte ≠ 0 ∧ byte ∉ delimiters)
    (ends : stop = 0 ∨ stop ∈ delimiters) :
    ∃ cut saved,
      strtok delimiters buffer front.length =
          .ok { buffer := cut, token := some front.length, saved } ∧
        cut.cells = front ++ (token ++ 0 :: rest) ∧
        saved = front.length + token.length + if stop = 0 then 0 else 1 := by
  have fromToken :
      buffer.cells.drop front.length = token ++ stop :: rest := by
    rw [shape, List.drop_left]
  obtain ⟨head, tail, isCons⟩ := List.exists_cons_of_ne_nil nonempty
  have headInside : head ≠ 0 ∧ head ∉ delimiters :=
    inside head (by rw [isCons]; exact List.mem_cons_self)
  have skipsNothing :
      (buffer.cells.drop front.length).takeWhile (· ∈ delimiters) = [] := by
    rw [fromToken, isCons, List.cons_append,
      List.takeWhile_cons_of_neg (by simpa using headInside.2)]
  have first : buffer.cells[front.length]? = some head := by
    rw [shape, List.getElem?_append_right (Nat.le_refl _), Nat.sub_self,
      isCons]
    rfl
  have takesToken :
      (buffer.cells.drop front.length).takeWhile
          (fun byte => byte ≠ 0 ∧ byte ∉ delimiters) = token := by
    rw [fromToken]
    exact takeWhile_token inside ends
  have last := getElem?_behind_token shape
  simp only [strtok, skipsNothing, List.length_nil, Nat.add_zero, first,
    if_neg headInside.1, takesToken, last]
  by_cases isNul : stop = 0
  · rw [if_pos isNul, if_pos isNul]
    refine ⟨buffer, _, rfl, ?_, rfl⟩
    rw [shape, isNul]
  · obtain ⟨cut, stored, cells⟩ := store_behind_token shape
    rw [if_neg isNul, if_neg isNul, stored]
    exact ⟨cut, _, rfl, cells, rfl⟩

/-- A call changes nothing in front of its position, and stores at most one
NUL. -/
theorem strtok_cases {size : Nat} {delimiters : List UInt8}
    {buffer : Buffer size} {position : Nat} {call : Strtok size}
    (called : strtok delimiters buffer position = .ok call) :
    call.buffer = buffer ∨
      ∃ last, position ≤ last ∧
        buffer.store last [0] = .ok call.buffer := by
  unfold strtok at called
  dsimp only at called
  split at called
  · cases called
  · split at called
    · cases called
      exact Or.inl rfl
    · split at called
      · cases called
      · split at called
        · cases called
          exact Or.inl rfl
        · cases stored : buffer.store _ [0] with
          | error fault =>
              rw [stored] at called
              cases called
          | ok cut =>
              rw [stored] at called
              cases called
              exact Or.inr ⟨_, by omega, stored⟩

/-- A string in front of the position stays terminated. -/
theorem strtok_keeps_string {size : Nat} {delimiters : List UInt8}
    {buffer : Buffer size} {text rest : List UInt8} {position : Nat}
    {call : Strtok size} (shape : buffer.cells = text ++ 0 :: rest)
    (inFront : text.length ≤ position)
    (called : strtok delimiters buffer position = .ok call) :
    ∃ left, call.buffer.cells = text ++ 0 :: left := by
  rcases strtok_cases called with same | ⟨last, behind, stored⟩
  · exact ⟨rest, by rw [same, shape]⟩
  · have cells := (Buffer.store_eq_ok_iff.mp stored).2
    rw [shape, patch_append_of_le (by omega)] at cells
    cases gap : last - text.length with
    | zero =>
        rw [gap, patch_zero] at cells
        exact ⟨rest, cells⟩
    | succ further =>
        rw [gap, patch_succ_cons] at cells
        exact ⟨_, cells⟩

/-- Delimiters in front of a token are skipped. -/
theorem strtok_skips {size : Nat} {delimiters : List UInt8}
    {buffer : Buffer size} {front gap tail : List UInt8}
    (shape : buffer.cells = front ++ (gap ++ tail))
    (skipped : ∀ byte, byte ∈ gap → byte ∈ delimiters) :
    strtok delimiters buffer front.length =
      strtok delimiters buffer (front ++ gap).length := by
  have fromGap : buffer.cells.drop front.length = gap ++ tail := by
    rw [shape, List.drop_left]
  have fromTail : buffer.cells.drop (front ++ gap).length = tail := by
    rw [shape, ← List.append_assoc, List.drop_left]
  have sameFirst :
      front.length +
          ((buffer.cells.drop front.length).takeWhile
            (· ∈ delimiters)).length =
        (front ++ gap).length +
          ((buffer.cells.drop (front ++ gap).length).takeWhile
            (· ∈ delimiters)).length := by
    rw [fromGap, fromTail, List.takeWhile_append_of_pos
      fun byte member => by simpa using skipped byte member,
      List.length_append, List.length_append, Nat.add_assoc]
  simp only [strtok, sameFirst]

/-- At the end of the string there is no token. -/
theorem strtok_end {size : Nat} {delimiters : List UInt8}
    {buffer : Buffer size} {front rest : List UInt8}
    (shape : buffer.cells = front ++ 0 :: rest)
    (noNul : 0 ∉ delimiters) :
    strtok delimiters buffer front.length =
      .ok { buffer, token := none, saved := front.length } := by
  have skipsNothing :
      (buffer.cells.drop front.length).takeWhile (· ∈ delimiters) = [] := by
    rw [shape, List.drop_left, List.takeWhile_cons_of_neg
      (by simpa using noNul)]
  have first : buffer.cells[front.length]? = some 0 := by
    rw [shape, List.getElem?_append_right (Nat.le_refl _), Nat.sub_self]
    rfl
  simp only [strtok, skipsNothing, List.length_nil, Nat.add_zero, first,
    if_pos]

/-! ## The tokens of a text -/

/-- The delimiters in front of the first token. -/
def tokenGap (delimiters text : List UInt8) : List UInt8 :=
  text.takeWhile (· ∈ delimiters)

def firstToken (delimiters text : List UInt8) : List UInt8 :=
  (text.dropWhile (· ∈ delimiters)).takeWhile (· ∉ delimiters)

/-- The rest of the text from the delimiter that ends the first token. -/
def behindToken (delimiters text : List UInt8) : List UInt8 :=
  (text.dropWhile (· ∈ delimiters)).dropWhile (· ∉ delimiters)

section Tokens

variable {delimiters text : List UInt8}

theorem tokenGap_append (delimiters text : List UInt8) :
    tokenGap delimiters text ++
        (firstToken delimiters text ++ behindToken delimiters text) =
      text := by
  rw [firstToken, behindToken, List.takeWhile_append_dropWhile, tokenGap,
    List.takeWhile_append_dropWhile]

theorem mem_of_mem_tokenGap {byte : UInt8}
    (member : byte ∈ tokenGap delimiters text) : byte ∈ delimiters := by
  simpa using List.mem_takeWhile_imp member

theorem not_mem_of_mem_firstToken {byte : UInt8}
    (member : byte ∈ firstToken delimiters text) : byte ∉ delimiters := by
  simpa using List.mem_takeWhile_imp member

/-- A text without a token consists of delimiters. -/
theorem tokenGap_of_no_token (noToken : firstToken delimiters text = []) :
    tokenGap delimiters text = text := by
  cases behind : text.dropWhile (· ∈ delimiters) with
  | nil =>
      have whole := tokenGap_append delimiters text
      rw [firstToken, behindToken, behind] at whole
      simpa using whole
  | cons head tail =>
      have headOutside : head ∉ delimiters := by
        have stops := List.head?_dropWhile_not (· ∈ delimiters) text
        rw [behind] at stops
        simpa using stops
      rw [firstToken, behind,
        List.takeWhile_cons_of_pos (by simpa using headOutside)] at noToken
      cases noToken

theorem head_behindToken {stop : UInt8} {rest : List UInt8}
    (shape : behindToken delimiters text = stop :: rest) :
    stop ∈ delimiters := by
  have stops := List.head?_dropWhile_not (· ∉ delimiters)
    (text.dropWhile (· ∈ delimiters))
  rw [behindToken] at shape
  rw [shape] at stops
  simpa using stops

theorem behindToken_of_no_token
    (noToken : firstToken delimiters text = []) :
    behindToken delimiters text = [] := by
  have whole := tokenGap_append delimiters text
  rw [tokenGap_of_no_token noToken, List.append_right_eq_self,
    List.append_eq_nil_iff] at whole
  exact whole.2

theorem nulFree_firstToken (free : NulFree text) :
    NulFree (firstToken delimiters text) := by
  intro byte member
  apply free byte
  rw [← tokenGap_append delimiters text]
  exact List.mem_append_right _ (List.mem_append_left _ member)

theorem nulFree_behindToken (free : NulFree text) :
    NulFree (behindToken delimiters text) := by
  intro byte member
  apply free byte
  rw [← tokenGap_append delimiters text]
  exact List.mem_append_right _ (List.mem_append_right _ member)

variable {size : Nat} {buffer : Buffer size} {front rest : List UInt8}

/-- A text without a token is skipped to its end. -/
theorem strtok_of_no_token
    (shape : buffer.cells = front ++ (text ++ 0 :: rest))
    (noNul : 0 ∉ delimiters) (noToken : firstToken delimiters text = []) :
    strtok delimiters buffer front.length =
      .ok { buffer, token := none, saved := (front ++ text).length } := by
  have skipped : ∀ byte, byte ∈ text → byte ∈ delimiters := by
    intro byte member
    rw [← tokenGap_of_no_token noToken] at member
    exact mem_of_mem_tokenGap member
  have atEnd : buffer.cells = (front ++ text) ++ 0 :: rest := by
    rw [shape, List.append_assoc]
  rw [strtok_skips shape skipped]
  exact strtok_end atEnd noNul

/-- The first token of a text is found behind the delimiters, and the text
behind it is left to the next call. -/
theorem strtok_of_first_token
    (shape : buffer.cells = front ++ (text ++ 0 :: rest))
    (free : NulFree text) (isToken : firstToken delimiters text ≠ []) :
    ∃ cut,
      strtok delimiters buffer front.length =
          .ok { buffer := cut,
                token := some (front ++ tokenGap delimiters text).length,
                saved := (front ++ tokenGap delimiters text).length +
                  (firstToken delimiters text).length +
                    if behindToken delimiters text = [] then 0 else 1 } ∧
        cut.cells =
          (front ++ tokenGap delimiters text) ++
            (firstToken delimiters text ++
              0 :: (behindToken delimiters text ++ 0 :: rest).tail) := by
  have whole := tokenGap_append delimiters text
  have inside : ∀ byte, byte ∈ firstToken delimiters text →
      byte ≠ 0 ∧ byte ∉ delimiters :=
    fun byte member =>
      ⟨nulFree_firstToken free byte member, not_mem_of_mem_firstToken member⟩
  obtain ⟨stop, tail, isCons⟩ :
      ∃ stop tail, behindToken delimiters text ++ 0 :: rest = stop :: tail :=
    List.exists_cons_of_ne_nil (by simp)
  have ends : (stop = 0 ↔ behindToken delimiters text = []) ∧
      (stop = 0 ∨ stop ∈ delimiters) := by
    cases behind : behindToken delimiters text with
    | nil =>
        rw [behind, List.nil_append] at isCons
        injection isCons with isStop _
        exact ⟨iff_of_true isStop.symm rfl, Or.inl isStop.symm⟩
    | cons head more =>
        rw [behind, List.cons_append] at isCons
        injection isCons with isStop _
        rw [← isStop]
        have notNul : head ≠ 0 := by
          apply nulFree_behindToken free
          rw [behind]
          exact List.mem_cons_self
        exact ⟨iff_of_false notNul (List.cons_ne_nil _ _),
          Or.inr (head_behindToken behind)⟩
  have fromGap : buffer.cells =
      front ++ (tokenGap delimiters text ++
        (firstToken delimiters text ++ stop :: tail)) := by
    rw [← isCons, shape]
    conv_lhs => rw [← whole]
    simp only [List.append_assoc]
  have fromToken : buffer.cells =
      (front ++ tokenGap delimiters text) ++
        (firstToken delimiters text ++ stop :: tail) := by
    rw [fromGap, List.append_assoc]
  obtain ⟨cut, saved, found, cells, isSaved⟩ :=
    strtok_token fromToken isToken inside ends.2
  simp only [ends.1] at isSaved
  refine ⟨cut, ?_, ?_⟩
  · rw [strtok_skips fromGap fun byte => mem_of_mem_tokenGap, found,
      isSaved]
  · rw [cells, isCons, List.tail_cons]

/-- What a call makes of a text: its first token is found and terminated, and
the text behind the delimiter is left to the next call. -/
structure Tokenizes (delimiters front text : List UInt8)
    (call : Strtok size) (next left : List UInt8) : Prop where
  token : call.token =
    if firstToken delimiters text = [] then none
    else some (front ++ tokenGap delimiters text).length
  saved : call.saved = next.length
  cells : call.buffer.cells =
    next ++ ((behindToken delimiters text).tail ++ 0 :: left)
  goesOn : (behindToken delimiters text).tail ≠ [] →
    next.length =
      (front ++ tokenGap delimiters text ++
        firstToken delimiters text).length + 1
  terminated : firstToken delimiters text ≠ [] →
    (front ++ tokenGap delimiters text ++
        firstToken delimiters text).length ≤ next.length ∧
      ∃ more,
        call.buffer.cells =
          (front ++ tokenGap delimiters text ++
            firstToken delimiters text) ++ 0 :: more

theorem strtok_tokenizes
    (shape : buffer.cells = front ++ (text ++ 0 :: rest))
    (noNul : 0 ∉ delimiters) (free : NulFree text) :
    ∃ call next left,
      strtok delimiters buffer front.length = .ok call ∧
        Tokenizes delimiters front text call next left := by
  by_cases noToken : firstToken delimiters text = []
  · have nothingBehind := behindToken_of_no_token noToken
    refine ⟨_, front ++ text, rest, strtok_of_no_token shape noNul noToken,
      ?_, rfl, ?_, ?_, ?_⟩
    · rw [if_pos noToken]
    · rw [nothingBehind, shape, List.append_assoc]
      rfl
    · intro isBehind
      rw [nothingBehind] at isBehind
      exact absurd rfl isBehind
    · intro isToken
      exact absurd noToken isToken
  · obtain ⟨cut, called, cells⟩ := strtok_of_first_token shape free noToken
    rw [← List.append_assoc] at cells
    cases behind : behindToken delimiters text with
    | nil =>
        rw [behind] at called cells
        refine ⟨_, front ++ tokenGap delimiters text ++
          firstToken delimiters text, rest, called, ?_, ?_, ?_, ?_, ?_⟩
        · rw [if_neg noToken]
        · exact (List.length_append ..).symm
        · rw [behind]
          exact cells
        · intro isBehind
          rw [behind] at isBehind
          exact absurd rfl isBehind
        · intro _
          exact ⟨Nat.le_refl _, rest, cells⟩
    | cons stop more =>
        rw [behind] at called cells
        refine ⟨_, front ++ tokenGap delimiters text ++
          firstToken delimiters text ++ [0], rest, called, ?_, ?_, ?_, ?_,
          ?_⟩
        · rw [if_neg noToken]
        · simp [Nat.add_assoc]
        · rw [behind, cells]
          simp
        · intro _
          rw [List.length_append, List.length_singleton]
        · intro _
          refine ⟨?_, _, cells⟩
          simp

end Tokens

/-! ## `strsep` -/

/-- What a call of `strsep` leaves: the buffer, the position of the token, and
the caller's pointer. -/
structure Strsep (size : Nat) where
  buffer : Buffer size
  token : Option Nat
  stringp : Option Nat

/-- `strsep`: the token ends at the next delimiter or at the end of the
string. -/
def strsep {size : Nat} (delimiters : List UInt8) (buffer : Buffer size)
    (stringp : Option Nat) : Except Fault (Strsep size) :=
  match stringp with
  | none => .ok { buffer, token := none, stringp := none }
  | some first =>
      let last :=
        first +
          ((buffer.cells.drop first).takeWhile
            fun byte => byte ≠ 0 ∧ byte ∉ delimiters).length
      match buffer.cells[last]? with
      | none => .error .outOfBounds
      | some stop =>
          if stop = 0 then
            .ok { buffer, token := some first, stringp := none }
          else do
            let cut ← buffer.store last [0]
            return { buffer := cut, token := some first,
                     stringp := some (last + 1) }

/-- A token, also an empty one, is found where the pointer stands; the pointer
then stands behind the delimiter, or is null when the string has ended. -/
theorem strsep_token {size : Nat} {delimiters : List UInt8}
    {buffer : Buffer size} {front token rest : List UInt8} {stop : UInt8}
    (shape : buffer.cells = front ++ (token ++ stop :: rest))
    (inside : ∀ byte, byte ∈ token → byte ≠ 0 ∧ byte ∉ delimiters)
    (ends : stop = 0 ∨ stop ∈ delimiters) :
    ∃ cut,
      strsep delimiters buffer (some front.length) =
          .ok { buffer := cut, token := some front.length,
                stringp :=
                  if stop = 0 then none
                  else some (front.length + token.length + 1) } ∧
        cut.cells = front ++ (token ++ 0 :: rest) := by
  have takesToken :
      (buffer.cells.drop front.length).takeWhile
          (fun byte => byte ≠ 0 ∧ byte ∉ delimiters) = token := by
    rw [shape, List.drop_left]
    exact takeWhile_token inside ends
  have last := getElem?_behind_token shape
  simp only [strsep, takesToken, last]
  by_cases isNul : stop = 0
  · rw [if_pos isNul, if_pos isNul]
    refine ⟨buffer, rfl, ?_⟩
    rw [shape, isNul]
  · obtain ⟨cut, stored, cells⟩ := store_behind_token shape
    rw [if_neg isNul, if_neg isNul, stored]
    exact ⟨cut, rfl, cells⟩

end Esp32Source.Memory
