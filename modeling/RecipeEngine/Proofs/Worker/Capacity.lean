import RecipeEngine.Worker.Handle
import RecipeEngine.Worker.Service

/-!
# The capacity that the settings ask for

A setting holds a number if it is a row of decimal digits, a plus sign being allowed in front, for a
number of 64 bits (`Config.number?_eq_some_iff`).  The buffer setting is such a number, and zero
counts as no number.

An inbox has a smaller limit than a setting.  So the settings start a worker unless they ask for a
buffer above that limit (`Handle.start_unless_too_large`); with such a buffer it cannot be started
(`Handle.start_beyond_capacity`).
-/

namespace RecipeEngine

namespace Config

/-! ## Numbers in settings -/

/-- Whether a text stands for a number in a setting: decimal digits, perhaps behind a plus sign, for
a number that a setting may hold. -/
def IsNumber (text : List Char) (n : Nat) : Prop :=
  ∃ ds, (text = ds ∨ text = '+' :: ds) ∧ ds ≠ [] ∧ (∀ d ∈ ds, d.isDigit = true) ∧
    n = Number.ofDigits ds ∧ n ≤ maxNumber

/-- A text without a plus sign in front. -/
def unsigned : List Char → List Char
  | '+' :: rest => rest
  | ds => ds

theorem unsigned_cases (text : List Char) : text = unsigned text ∨ text = '+' :: unsigned text := by
  unfold unsigned
  split
  · exact .inr rfl
  · exact .inl rfl

theorem unsigned_eq {text ds : List Char} (areDigits : ∀ d ∈ ds, d.isDigit = true)
    (written : text = ds ∨ text = '+' :: ds) : unsigned text = ds := by
  obtain rfl | rfl := written
  · unfold unsigned
    split
    next rest =>
      -- A plus sign is no digit.
      cases areDigits '+' List.mem_cons_self
    next => rfl
  · rfl

theorem number?_eq (setting : String) :
    number? setting =
      if unsigned setting.toList ≠ [] ∧ (unsigned setting.toList).all Char.isDigit then
        if Number.ofDigits (unsigned setting.toList) ≤ maxNumber then
          some (Number.ofDigits (unsigned setting.toList))
        else none
      else none := rfl

theorem number?_eq_some_iff {setting : String} {n : Nat} :
    number? setting = some n ↔ IsNumber setting.toList n := by
  simp only [number?_eq, Option.ite_none_right_eq_some, Option.some.injEq, List.all_eq_true]
  constructor
  · rintro ⟨⟨nonempty, areDigits⟩, bound, rfl⟩
    exact ⟨_, unsigned_cases _, nonempty, areDigits, rfl, bound⟩
  · rintro ⟨ds, written, nonempty, areDigits, rfl, bound⟩
    rw [unsigned_eq areDigits written]
    exact ⟨⟨nonempty, areDigits⟩, bound, rfl⟩

/-- The number that is set for the buffer, if there is one. -/
def bufferSet? (setting : String → Option String) : Option Nat :=
  (setting commandBufferSetting).bind number?

theorem bufferSet?_eq_some_iff {setting : String → Option String} {n : Nat} :
    bufferSet? setting = some n ↔
      ∃ text, setting commandBufferSetting = some text ∧ IsNumber text.toList n := by
  simp only [bufferSet?, Option.bind_eq_some_iff, number?_eq_some_iff]

/-- The buffer is the number that is set unless that is zero, and else the default. -/
theorem commandBuffer_eq (freshId : String) (setting : String → Option String) :
    (ofSettings freshId setting).commandBuffer =
      match bufferSet? setting with
      | some (n + 1) => n + 1
      | _ => defaultCommandBuffer := by
  show ((bufferSet? setting).filter (0 < ·)).getD _ = _
  match bufferSet? setting with
  | none => rfl
  | some 0 => rfl
  | some (_ + 1) => rfl

end Config

/-! ## Inboxes -/

theorem checkInbox_of_fits {capacity : Nat} (positive : 0 < capacity)
    (fits : capacity ≤ maxInboxCapacity) : checkInbox capacity = .ok () := by
  rw [checkInbox, if_neg (Nat.ne_of_gt positive), if_neg (Nat.not_lt.2 fits)]

theorem checkInbox_of_tooLarge {capacity : Nat} (tooLarge : maxInboxCapacity < capacity) :
    checkInbox capacity = .error .tooLarge := by
  rw [checkInbox, if_neg (Nat.ne_zero_of_lt tooLarge), if_pos tooLarge]

section

variable {setting : String → Option String} (freshId : String)

theorem checkInbox_of_set_fits
    (fits : ∀ n, Config.bufferSet? setting = some n → n ≤ maxInboxCapacity) :
    checkInbox (Config.ofSettings freshId setting).commandBuffer = .ok () := by
  rw [Config.commandBuffer_eq]
  split
  next n isSet => exact checkInbox_of_fits (Nat.succ_pos n) (fits _ isSet)
  next => exact checkInbox_of_fits (by decide) (by decide)

theorem checkInbox_of_set_tooLarge {n : Nat} (isSet : Config.bufferSet? setting = some n)
    (tooLarge : maxInboxCapacity < n) :
    checkInbox (Config.ofSettings freshId setting).commandBuffer = .error .tooLarge := by
  obtain ⟨m, rfl⟩ := Nat.exists_eq_add_one_of_ne_zero (Nat.ne_zero_of_lt tooLarge)
  rw [Config.commandBuffer_eq, isSet]
  exact checkInbox_of_tooLarge tooLarge

end

namespace Handle

open Config (IsNumber commandBufferSetting bufferSet?_eq_some_iff)

/-- Whatever the settings are, they give a configuration, and a worker starts with its buffer unless
the buffer is set to a number above the greatest capacity of an inbox.  With such a number there is
no worker. -/
theorem start_unless_too_large (freshId : String) (setting : String → Option String) (w : Worker) :
    (Handle.start w (Config.ofSettings freshId setting).commandBuffer = .ok ⟨w, [], [], false⟩ ↔
        ∀ text n, setting commandBufferSetting = some text → IsNumber text.toList n →
          n ≤ maxInboxCapacity) ∧
      (Handle.start w (Config.ofSettings freshId setting).commandBuffer = .error .tooLarge ↔
        ∃ text n, setting commandBufferSetting = some text ∧ IsNumber text.toList n ∧
          maxInboxCapacity < n) := by
  by_cases large : ∃ text n, setting commandBufferSetting = some text ∧ IsNumber text.toList n ∧
      maxInboxCapacity < n
  · obtain ⟨text, n, given, isNumber, tooLarge⟩ := large
    have isSet := bufferSet?_eq_some_iff.2 ⟨text, given, isNumber⟩
    have refused : Handle.start w (Config.ofSettings freshId setting).commandBuffer =
        .error .tooLarge := by
      rw [start, checkInbox_of_set_tooLarge freshId isSet tooLarge]
      rfl
    rw [refused]
    refine ⟨iff_of_false nofun fun fits => ?_, iff_of_true rfl ⟨text, n, given, isNumber, tooLarge⟩⟩
    exact Nat.not_lt.2 (fits text n given isNumber) tooLarge
  · have fits : ∀ text n, setting commandBufferSetting = some text → IsNumber text.toList n →
        n ≤ maxInboxCapacity := fun text n given isNumber =>
      Nat.not_lt.1 fun tooLarge => large ⟨text, n, given, isNumber, tooLarge⟩
    have started : Handle.start w (Config.ofSettings freshId setting).commandBuffer =
        .ok ⟨w, [], [], false⟩ := by
      rw [start, checkInbox_of_set_fits freshId fun n isSet => ?_]
      · rfl
      · obtain ⟨text, given, isNumber⟩ := bufferSet?_eq_some_iff.1 isSet
        exact fits text n given isNumber
    rw [started]
    exact ⟨iff_of_true rfl fits, iff_of_false nofun large⟩

/-- A buffer of one message more than an inbox can hold. -/
def beyondCapacity (name : String) : Option String :=
  if name = commandBufferSetting then some "2305843009213693952" else none

/-- Settings that do not start a worker: their buffer is one message larger than any inbox. -/
theorem start_beyond_capacity :
    Handle.start (Service.worker (Config.ofSettings "worker" beyondCapacity))
      (Config.ofSettings "worker" beyondCapacity).commandBuffer = .error .tooLarge := by
  have isSet : Config.bufferSet? beyondCapacity = some 2305843009213693952 := by decide
  rw [start, checkInbox_of_set_tooLarge "worker" isSet (by decide)]
  rfl

end Handle

end RecipeEngine
