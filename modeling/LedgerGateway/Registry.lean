import LedgerGateway.Call.Method

/-!
# Registered contracts

The registry holds contracts by name, one for each. Lemmas say what looking up a name gives after a
change.
-/

namespace LedgerGateway

/-- A contract that is known. -/
structure Contract where
  name : String
  /-- Its address, once that is known. -/
  address? : Option Address
  interface : Abi.Interface
  interfaceText : String

/-- The contracts that are known. -/
structure Registry where
  /-- The contracts, in the order in which they came. -/
  contracts : List Contract := []
  nodup : (contracts.map (·.name)).Nodup := by simp

namespace Registry

def empty : Registry := {}

/-- How many contracts there are. -/
def size (r : Registry) : Nat := r.contracts.length

def get? (r : Registry) (name : String) : Option Contract :=
  r.contracts.find? (·.name == name)

def findByAddress? (r : Registry) (address : Address) : Option Contract :=
  r.contracts.find? (·.address? == some address)

/-- The registry without the contract of a name. -/
def erase (r : Registry) (name : String) : Registry where
  contracts := r.contracts.filter (·.name != name)
  nodup := r.nodup.sublist (List.filter_sublist.map _)

/-- The registry with a contract in place of the one of its name. -/
def insert (r : Registry) (c : Contract) : Registry where
  contracts := (r.erase c.name).contracts ++ [c]
  nodup := by
    rw [List.map_append, List.nodup_append]
    refine ⟨(r.erase c.name).nodup, by simp, ?_⟩
    intro a ha b hb
    simp only [List.map_cons, List.map_nil, List.mem_singleton] at hb
    obtain ⟨d, hd, rfl⟩ := List.mem_map.1 ha
    have := (List.mem_filter.1 hd).2
    subst hb
    simpa using this

/-- Registers a contract by the text of its interface. -/
def register (r : Registry) (name : String) (address? : Option Address) (interfaceText : String) :
    Except CallError (Contract × Registry) := do
  let interface ← Abi.Interface.read interfaceText
  let c : Contract := ⟨name, address?, interface, interfaceText⟩
  pure (c, r.insert c)

/-! ## Lookups after a change -/

@[simp] theorem get?_empty (name : String) : empty.get? name = none := rfl

theorem get?_erase (r : Registry) (name other : String) :
    (r.erase name).get? other = if other = name then none else r.get? other := by
  simp only [get?, erase, List.find?_filter]
  split
  · next h =>
    subst h
    rw [List.find?_eq_none]
    intro c _
    cases hc : c.name == other <;> simp_all
  · next h =>
    congr 1
    funext c
    cases hc : c.name == other
    · simp
    · have : c.name = other := by simpa using hc
      simp [this, h]

theorem get?_insert (r : Registry) (c : Contract) (name : String) :
    (r.insert c).get? name = if name = c.name then some c else r.get? name := by
  have h := get?_erase r c.name name
  simp only [get?] at h
  simp only [get?, insert, List.find?_append, h]
  split
  · next e => simp [e]
  · next e =>
    have e' : ¬ c.name = name := fun x => e x.symm
    simp [e']

end Registry

end LedgerGateway
