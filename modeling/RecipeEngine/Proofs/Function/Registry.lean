import RecipeEngine.Proofs.Text.Order
import RecipeEngine.Proofs.Worker.BringUp
import RecipeEngine.Run.Execute

/-!
# What a registry holds

A registry comes about by calls: registrations, in which a key may occur again and again, and the
remark that it is ready.  All that can be seen of it is settled by the last registration under each
key and by whether it was marked ready at any time (`Registry.last_registration_wins`).
-/

namespace RecipeEngine

/-! ## Entries -/

namespace Text.Entries

variable {α : Type} {entry : String × α} {rest : List (String × α)}

/-- Nothing is found under a key that comes before all others. -/
theorem find?_eq_none_of_before {key : String} {entries : List (String × α)}
    (before : ∀ other ∈ entries, key < other.1) : find? key entries = none := by
  by_contra found
  obtain ⟨other, member, rfl⟩ :=
    List.mem_map.1 (find?_isSome_iff.1 (Option.isSome_iff_ne_none.2 found))
  exact String.lt_irrefl _ (before other member)

theorem find?_eq_none_of_lt {key : String} (sorted : Sorted (entry :: rest))
    (before : key < entry.1) : find? key (entry :: rest) = none :=
  find?_eq_none_of_before <| List.forall_mem_cons.2 ⟨before, fun other later =>
    String.lt_trans before ((List.pairwise_cons.1 sorted).1 other later)⟩

/-- Sorted entries are told apart by what is found in them. -/
theorem eq_of_find?_eq {entries entries' : List (String × α)} (sorted : Sorted entries)
    (sorted' : Sorted entries') (same : ∀ key, find? key entries = find? key entries') :
    entries = entries' := by
  -- The first key of either side is found on the other, so neither comes before the other.
  induction entries generalizing entries' with
  | nil =>
    cases entries' with
    | nil => rfl
    | cons entry' rest' =>
      have first := same entry'.1
      rw [find?_cons, if_pos rfl] at first
      cases first
  | cons entry rest ih =>
    cases entries' with
    | nil =>
      have first := same entry.1
      rw [find?_cons, if_pos rfl] at first
      cases first
    | cons entry' rest' =>
      have first := same entry.1
      have first' := same entry'.1
      rw [find?_cons, if_pos rfl] at first
      rw [find?_cons entry'.1 entry', if_pos rfl] at first'
      have sameKey : entry.1 = entry'.1 := by
        refine key_eq_of_not_lt (fun before => ?_) fun after => ?_
        · rw [find?_eq_none_of_lt sorted' before] at first
          cases first
        · rw [find?_eq_none_of_lt sorted after] at first'
          cases first'
      rw [sameKey, find?_cons, if_pos rfl] at first
      have sameEntry : entry = entry' := Prod.ext sameKey (Option.some.inj first)
      have sameRest : ∀ key, find? key rest = find? key rest' := by
        intro key
        by_cases isFirst : key = entry.1
        · rw [isFirst, find?_eq_none_of_before (List.pairwise_cons.1 sorted).1, sameKey,
            find?_eq_none_of_before (List.pairwise_cons.1 sorted').1]
        · have later := same key
          rwa [find?_cons, if_neg isFirst, find?_cons, if_neg (sameKey ▸ isFirst)] at later
      rw [sameEntry, ih (List.pairwise_cons.1 sorted).2 (List.pairwise_cons.1 sorted').2 sameRest]

end Text.Entries

/-! ## Calls -/

/-- The calls by which a registry comes about. -/
inductive RegistryCall where
  | register (key : String) (f : Function)
  | registerRaw (key : String) (f : Json → Json)
  | markReady

namespace RegistryCall

def perform (r : Registry) : RegistryCall → Registry
  | .register key f => r.register key f
  | .registerRaw key f => r.registerRaw key f
  | .markReady => r.markReady

/-- The function that a call registers under a key, if it registers one there. -/
def registered? (key : String) : RegistryCall → Option Function
  | .register other f => if key = other then some f else none
  | .registerRaw other f => if key = other then some (Function.ofRaw f) else none
  | .markReady => none

/-- The function that the last call with a key registers. -/
def last? (key : String) (calls : List RegistryCall) : Option Function :=
  (calls.filterMap (registered? key)).getLast?

theorem last?_cons (key : String) (call : RegistryCall) (calls : List RegistryCall) :
    last? key (call :: calls) = (last? key calls).or (call.registered? key) := by
  rw [last?, List.filterMap_cons]
  cases call.registered? key with
  | none => rw [Option.or_none, last?]
  | some f =>
    rw [List.getLast?_cons, last?]
    cases (calls.filterMap (registered? key)).getLast? <;> rfl

theorem lookup_perform (r : Registry) (call : RegistryCall) (key : String) :
    (call.perform r).lookup key = (call.registered? key).or (r.lookup key) := by
  cases call with
  | register other f =>
    simp only [perform, Registry.register, Registry.lookup, Text.Entries.find?_insert, registered?]
    split <;> rfl
  | registerRaw other f =>
    simp only [perform, Registry.registerRaw, Registry.register, Registry.lookup,
      Text.Entries.find?_insert, registered?]
    split <;> rfl
  | markReady => rfl

theorem lookup_foldl (r : Registry) (calls : List RegistryCall) (key : String) :
    (calls.foldl perform r).lookup key = (last? key calls).or (r.lookup key) := by
  induction calls generalizing r with
  | nil => rfl
  | cons call calls ih =>
    rw [List.foldl_cons, ih, lookup_perform, last?_cons, Option.or_assoc]

theorem isReady_foldl (r : Registry) (calls : List RegistryCall) :
    (calls.foldl perform r).isReady = true ↔ .markReady ∈ calls ∨ r.isReady = true := by
  induction calls generalizing r with
  | nil => simp
  | cons call calls ih =>
    rw [List.foldl_cons, ih, List.mem_cons]
    cases call with
    | register key f => simp [perform, Registry.register]
    | registerRaw key f => simp [perform, Registry.registerRaw, Registry.register]
    | markReady => simp [perform, Registry.markReady]

end RegistryCall

namespace Registry

/-- A new registry after some calls. -/
def after (calls : List RegistryCall) : Registry := calls.foldl RegistryCall.perform empty

variable {calls calls' : List RegistryCall}

theorem lookup_after (calls : List RegistryCall) (key : String) :
    (after calls).lookup key = RegistryCall.last? key calls :=
  (RegistryCall.lookup_foldl empty calls key).trans (Option.or_none ..)

theorem isReady_after : (after calls).isReady = true ↔ .markReady ∈ calls := by
  rw [after, RegistryCall.isReady_foldl]
  exact or_iff_left Bool.false_ne_true

theorem entries_after (same : ∀ key, RegistryCall.last? key calls = RegistryCall.last? key calls') :
    (after calls).entries = (after calls').entries :=
  Text.Entries.eq_of_find?_eq (after calls).sorted (after calls').sorted fun key =>
    (lookup_after calls key).trans ((same key).trans (lookup_after calls' key).symm)

theorem eq_of_entries {r r' : Registry} (entries : r.entries = r'.entries)
    (ready : r.isReady = true ↔ r'.isReady = true) : r = r' := by
  obtain ⟨entries, sorted, isReady⟩ := r
  obtain ⟨entries', sorted', isReady'⟩ := r'
  cases entries
  cases Bool.eq_iff_iff.2 ready
  rfl

/-- What is found under a key is what was last registered there; the registered keys are listed in
the order of their octets, each once; and the registry is ready if it was marked so, before, between
or after the registrations.  Two rows of calls with the same last registrations make registries that
cannot be told apart, and if both or neither marks it ready, every recipe runs alike on them. -/
theorem last_registration_wins (calls : List RegistryCall) :
    (∀ key, (after calls).lookup key = RegistryCall.last? key calls) ∧
      (∀ key, ((after calls).has key = true ↔ ((after calls).lookup key).isSome = true) ∧
        ((after calls).has key = true ↔ key ∈ (after calls).keys)) ∧
      ((after calls).keys.Pairwise fun a b => Text.octets a.toList < Text.octets b.toList) ∧
      (after calls).keys.length = (after calls).size ∧
      ((after calls).isReady = true ↔ .markReady ∈ calls) ∧
      ∀ calls', (∀ key, RegistryCall.last? key calls = RegistryCall.last? key calls') →
        (∀ key, (after calls).lookup key = (after calls').lookup key ∧
          (after calls).has key = (after calls').has key) ∧
        (after calls).keys = (after calls').keys ∧ (after calls).size = (after calls').size ∧
        ((.markReady ∈ calls ↔ .markReady ∈ calls') → ∀ p v,
          Execution.ofProgram (after calls) p v = Execution.ofProgram (after calls') p v) := by
  refine ⟨lookup_after calls, fun key => ⟨Iff.rfl, mem_keys_iff.symm⟩, ?_, List.length_map _,
    isReady_after, ?_⟩
  · exact (pairwise_keys _).imp Text.octets_lt_iff.2
  · intro calls' same
    have entries := entries_after same
    refine ⟨fun key => ?_, ?_, ?_, fun ready p v => ?_⟩
    · simp only [has, lookup, entries, and_self]
    · rw [keys, keys, entries]
    · rw [size, size, entries]
    · have ready : (after calls).isReady = true ↔ (after calls').isReady = true := by
        rw [isReady_after, isReady_after, ready]
      rw [eq_of_entries entries ready]

/-- A registration that is replaced after the registry has been marked ready.  In units of 16 bits
the two keys would come the other way round. -/
def overwritten : List RegistryCall :=
  [.register "😀" Builtin.encodeText, .registerRaw "豈" id, .markReady,
    .register "😀" Builtin.decodeText]

def writtenOnce : List RegistryCall :=
  [.markReady, .register "😀" Builtin.decodeText, .registerRaw "豈" id]

theorem last_registration_wins_overwritten :
    (∀ key, RegistryCall.last? key overwritten = RegistryCall.last? key writtenOnce) ∧
      (RegistryCall.markReady ∈ overwritten ↔ RegistryCall.markReady ∈ writtenOnce) ∧
      (after overwritten).lookup "😀" = some Builtin.decodeText ∧
      (after overwritten).keys = ["豈", "😀"] ∧
      (after overwritten).keys = (after writtenOnce).keys ∧
      ∀ p v, Execution.ofProgram (after overwritten) p v =
        Execution.ofProgram (after writtenOnce) p v := by
  obtain ⟨found, -, -, -, -, alike⟩ := last_registration_wins overwritten
  have same : ∀ key, RegistryCall.last? key overwritten = RegistryCall.last? key writtenOnce := by
    intro key
    by_cases first : key = "豈"
    · subst first
      rfl
    · by_cases second : key = "😀"
      · subst second
        rfl
      · simp [RegistryCall.last?, overwritten, writtenOnce, RegistryCall.registered?, first, second]
  have ready : RegistryCall.markReady ∈ overwritten ↔ RegistryCall.markReady ∈ writtenOnce :=
    iff_of_true (by simp [overwritten]) (by simp [writtenOnce])
  obtain ⟨-, keys, -, runs⟩ := alike writtenOnce same
  exact ⟨same, ready, found "😀", by decide, keys, runs ready⟩

end Registry

end RecipeEngine
