import DayNight.Camera

namespace DayNight

-- Whoever holds the claim on a device may open it; nobody else can claim it until the claim is
-- given up.
structure Claims where
  taken : PerCamera Bool
  deriving DecidableEq, Repr, Inhabited

namespace Claims

def none : Claims := ⟨.both false⟩

def isClaimed (cs : Claims) (c : Camera) : Bool := cs.taken.get c

def claim? (cs : Claims) (c : Camera) : Option Claims :=
  if cs.isClaimed c then Option.none else some ⟨cs.taken.set c true⟩

def release (cs : Claims) (c : Camera) : Claims := ⟨cs.taken.set c false⟩

theorem isClaimed_release (cs : Claims) (c : Camera) : (cs.release c).isClaimed c = false := by
  simp [release, isClaimed]

theorem isClaimed_of_claim? {cs new : Claims} {c : Camera} (h : cs.claim? c = some new) :
    cs.isClaimed c = false ∧ new.isClaimed c = true := by
  unfold claim? at h
  split at h
  · simp at h
  · next hc =>
    obtain rfl := Option.some.inj h
    exact ⟨by simpa using hc, by simp [isClaimed]⟩

end Claims

end DayNight
