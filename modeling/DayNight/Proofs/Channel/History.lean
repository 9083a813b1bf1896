import DayNight.Channel.Use
import Mathlib.Data.List.Induction

namespace DayNight

namespace Channel

variable {α : Type}

namespace Operation

def value? : Operation α → Option α
  | publish value => some value
  | _ => none

def isRead : Operation α → Bool
  | latest => true
  | latestSequence => true
  | _ => false

theorem value_of_isRead {operation : Operation α} (h : operation.isRead) :
    operation.value? = none := by
  cases operation
  case publish => cases h
  all_goals rfl

end Operation

section History

variable [Record α] (capacity : UInt64) (history : List (Operation α))

-- The values that the user has tried to publish, in order.
def offered : List α := history.filterMap Operation.value?

def fits (value : α) : Bool := Record.encodedLength value ≤ capacity.toNat

def accepted : List α := (offered history).filter (fits capacity)

def newest : Option (Published α) :=
  (accepted capacity history).getLast?.map fun value =>
    ⟨.ofNat (accepted capacity history).length, value⟩

def counts : ChannelStats where
  published := (accepted capacity history).length
  rejected := (offered history).countP (!fits capacity ·)
  reads := history.countP Operation.isRead

-- The answer to the next operation.
def due : Operation α → Answer α
  | .publish value => .published
    (if fits capacity value then .ok (.ofNat ((accepted capacity history).length + 1))
    else .error (.payloadTooLarge (Record.encodedLength value) capacity.toNat))
  | .latest => .newest (newest capacity history)
  | .latestSequence => .sequence (.ofNat (accepted capacity history).length)
  | .stats => .stats (counts capacity history)

end History

section

variable [Record α] {capacity : UInt64} {history : List (Operation α)} {value : α}
         {operation : Operation α}

omit [Record α] in
theorem offered_concat (history : List (Operation α)) (operation : Operation α) :
    offered (history ++ [operation]) = offered history ++ operation.value?.toList := by
  cases operation <;> simp [offered, Operation.value?]

theorem accepted_concat : accepted capacity (history ++ [operation]) =
    accepted capacity history ++ operation.value?.toList.filter (fits capacity) := by
  rw [accepted, offered_concat, List.filter_append, accepted]

theorem accepted_of_fits (h : fits capacity value) :
    accepted capacity (history ++ [.publish value]) = accepted capacity history ++ [value] := by
  simp [accepted_concat, Operation.value?, h]

theorem accepted_of_not_fits (h : ¬ fits capacity value) :
    accepted capacity (history ++ [.publish value]) = accepted capacity history := by
  simp [accepted_concat, Operation.value?, h]

theorem accepted_of_none (h : operation.value? = none) :
    accepted capacity (history ++ [operation]) = accepted capacity history := by
  simp [accepted_concat, h]

theorem newest_of_fits (h : fits capacity value) : newest capacity (history ++ [.publish value]) =
    some ⟨.ofNat ((accepted capacity history).length + 1), value⟩ := by
  simp [newest, accepted_of_fits h]

theorem newest_of_accepted {other : List (Operation α)}
    (h : accepted capacity other = accepted capacity history) :
    newest capacity other = newest capacity history := by
  rw [newest, h, newest]

theorem newest_sequence : ((newest capacity history).map (·.sequence)).getD 0 =
    .ofNat (accepted capacity history).length := by
  rw [newest]
  generalize accepted capacity history = values
  cases values using List.reverseRecOn
  case nil              => rfl
  case append_singleton => simp

theorem fits_of_newest {p : Published α} (h : newest capacity history = some p) :
    fits capacity p.value ∧ p.value ∈ offered history := by
  obtain ⟨value, hv, rfl⟩ := Option.map_eq_some_iff.mp h
  have ⟨ho, hf⟩ := List.mem_filter.mp (List.mem_of_getLast? hv)
  exact ⟨hf, ho⟩

theorem counts_of_fits (h : fits capacity value) :
    counts capacity (history ++ [.publish value]) = { counts capacity history with
      published := (counts capacity history).published + 1 } := by
  simp [counts, accepted_of_fits h, offered_concat, Operation.value?, Operation.isRead, h]

theorem counts_of_not_fits (h : ¬ fits capacity value) :
    counts capacity (history ++ [.publish value]) = { counts capacity history with
      rejected := (counts capacity history).rejected + 1 } := by
  simp [counts, accepted_of_not_fits h, offered_concat, Operation.value?, Operation.isRead, h]

theorem counts_of_read (h : operation.isRead) : counts capacity (history ++ [operation]) =
    { counts capacity history with reads := (counts capacity history).reads + 1 } := by
  have hv := operation.value_of_isRead h
  simp [counts, accepted_of_none hv, offered_concat, hv, h]

theorem counts_of_stats : counts capacity (history ++ [.stats]) = counts capacity history := by
  simp [counts, accepted_concat, offered_concat, Operation.value?, Operation.isRead]

theorem published_add_rejected :
    (counts capacity history).published + (counts capacity history).rejected =
      (offered history).length := by
  rw [List.length_eq_countP_add_countP (fits capacity), List.countP_eq_length_filter]
  simp [counts, accepted]

end

end Channel

end DayNight
