import Katela.Net.Matching

/-! # The transaction id and the port of a request

`net_resolve` takes both from one word. The id is the lower half of the word and the port
comes from the fourteen bits behind the third, so all but one of these are bits of the id. -/

namespace Katela.Net

def dnsPortBase : Nat := 49152

/-- `entropy`, for the lower half of the timestamp counter. -/
def entropy (low : UInt32) : UInt32 := low ^^^ (low >>> 16)

/-- An attempt with the given random word uses the given id and the given port. -/
def Draws (world : World) (random : UInt32) (id port : UInt16) : Prop :=
  ∃ chosen bound later, advance world random = some chosen ∧
    advance chosen later = some bound ∧ bound.dns.id = id ∧ bound.dns.localPort = port

section Drawing

variable {world : World} {name : CString} {attempts : Nat}

theorem draws_iff (attempting : world.shell = .resolveId name (attempts + 1))
    (random : UInt32) (id port : UInt16) :
    Draws world random id port ↔ UInt16.ofNat random.toNat = id ∧ portOf random = port := by
  constructor
  · rintro ⟨chosen, bound, later, chooses, binds, isId, isPort⟩
    simp only [advance, attempting] at chooses
    cases chooses
    cases binds
    exact ⟨isId, isPort⟩
  · rintro ⟨isId, isPort⟩
    have chooses : advance world random = some { world with
        dns := { world.dns with id := UInt16.ofNat random.toNat }
        heard := []
        shell := .resolvePort name attempts random } := by
      simp only [advance, attempting]
    exact ⟨_, _, 0, chooses, rfl, isId, isPort⟩

/-- Mixing twice gives back the counter. -/
theorem entropy_entropy (low : UInt32) : entropy (entropy low) = low := by
  apply UInt32.toBitVec_inj.mp
  apply BitVec.eq_of_getLsbD_eq
  intro index inside
  have beyond : low.toBitVec.getLsbD (16 + (16 + index)) = false :=
    BitVec.getLsbD_of_ge _ _ (by omega)
  simp [entropy, beyond]

/-- Every word is drawn for some value of the counter. -/
theorem exists_draws_entropy (id port : UInt16) :
    (∃ low, Draws world (entropy low) id port) ↔ ∃ random, Draws world random id port := by
  constructor
  · rintro ⟨low, draws⟩
    exact ⟨entropy low, draws⟩
  · rintro ⟨random, draws⟩
    refine ⟨entropy random, ?_⟩
    rw [entropy_entropy]
    exact draws

theorem toNat_portOf (random : UInt32) :
    (portOf random).toNat = dnsPortBase + random.toNat / 8 % 16384 := by
  have shifted : random.toNat >>> 3 = random.toNat / 8 := Nat.shiftRight_eq_div_pow _ 3
  have small := Nat.mod_lt (random.toNat / 8) (show 0 < 16384 by decide)
  unfold portOf dnsPortBase
  rw [shifted, UInt16.toNat_ofNat']
  omega

theorem draws_repeats (attempting : world.shell = .resolveId name (attempts + 1))
    {random : UInt32} {id port : UInt16} (draws : Draws world random id port) :
    (port.toNat - dnsPortBase) % 8192 = id.toNat / 8 := by
  rcases (draws_iff attempting random id port).mp draws with ⟨isId, isPort⟩
  have idValue : id.toNat = random.toNat % 65536 := by
    rw [← isId, UInt16.toNat_ofNat']
  have portValue := toNat_portOf random
  rw [isPort] at portValue
  omega

theorem draws_of_repeats (attempting : world.shell = .resolveId name (attempts + 1))
    {id port : UInt16} (inRange : dnsPortBase ≤ port.toNat)
    (repeats : (port.toNat - dnsPortBase) % 8192 = id.toNat / 8) :
    ∃ random, Draws world random id port := by
  have isBase : dnsPortBase = 49152 := rfl
  have idSmall := id.toNat_lt
  have portSmall := port.toNat_lt
  -- The sixteenth bit of the word is the only one that the id does not see.
  let word := id.toNat + 65536 * ((port.toNat - dnsPortBase) / 8192)
  have isWord : (UInt32.ofNat word).toNat = word := by
    rw [UInt32.toNat_ofNat']
    omega
  refine ⟨UInt32.ofNat word, (draws_iff attempting _ id port).mpr ⟨?_, ?_⟩⟩
  · apply UInt16.toNat_inj.mp
    rw [isWord, UInt16.toNat_ofNat']
    omega
  · apply UInt16.toNat_inj.mp
    rw [toNat_portOf, isWord]
    omega

/-- An attempt can use an id together with a port exactly if the port repeats the id
without its three lowest bits. -/
theorem attempt_draws_iff (attempting : world.shell = .resolveId name (attempts + 1))
    (id port : UInt16) (inRange : dnsPortBase ≤ port.toNat) :
    (∃ low, Draws world (entropy low) id port) ↔
      (port.toNat - dnsPortBase) % 8192 = id.toNat / 8 := by
  rw [exists_draws_entropy]
  constructor
  · rintro ⟨random, draws⟩
    exact draws_repeats attempting draws
  · intro repeats
    exact draws_of_repeats attempting inRange repeats

end Drawing

/-- Before the first attempt of a call. -/
def resolving : World := { quiet with shell := .resolveId .empty dnsAttempts }

theorem first_port_draws : ∃ low, Draws resolving (entropy low) 7 49152 :=
  (attempt_draws_iff rfl 7 49152 (by decide)).mpr (by decide)

/-- No value of the counter gives the id zero and the second port. -/
theorem second_port_excludes :
    ¬ ∀ (id port : UInt16), dnsPortBase ≤ port.toNat →
      ∃ low, Draws resolving (entropy low) id port := by
  intro all
  rcases all 0 49153 (by decide) with ⟨low, draws⟩
  have repeats := draws_repeats rfl draws
  exact absurd repeats (by decide)

end Katela.Net
