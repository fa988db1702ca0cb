import LedgerGateway.Proofs.Proof.Membership
import LedgerGateway.Proofs.Rlp.Reader

/-!
# The levels between a leaf and its root

A level is what is hashed in one piece, cut at the value that is proven. Two paths to one root are
compared from the root down: the levels at the top hash to the same root, and as long as the levels
are the same, they hand the same value down. `Leads.eq_or_part` says where such a descent can end: at
the same leaf; at two levels of the same hash, which collide or are one input cut in two ways; or
where one path stands on its leaf and the other one still has a digest.
-/

namespace LedgerGateway.Merkle

/-- One level of a path: the siblings to the left, the value so far and the siblings to the right. -/
structure Level where
  left : Bytes
  /-- The leaf, or the hash of the level below. -/
  running : Bytes
  right : Bytes
  deriving DecidableEq

def Level.input (l : Level) : Bytes := l.left ++ l.running ++ l.right

/-- The levels that a proof climbs from a value, the lowest first. -/
def levels (hash : Bytes → Digest) (running : Bytes) : MerkleProof → Except ProofError (List Level)
  | [] => .ok []
  | unit :: rest => do
    let left ← siblingRow unit.left
    let right ← siblingRow unit.right
    let level : Level := ⟨left, running, right⟩
    let above ← levels hash (hash level.input).1 rest
    pure (level :: above)

/-- The levels that are hashed to check a transaction, the lowest first. -/
def transactionLevels (hash : Bytes → Digest) (index : Option UInt64) (txHash : String)
    (proof : MerkleProof) : Except ProofError (List Level) := do
  let leaf ← transactionLeaf index txHash
  levels hash leaf proof

variable {hash : Bytes → Digest} {leaf : Bytes}

/-! ## Paths -/

/-- The levels, the highest first, lead from the leaf to the root. -/
inductive Leads (hash : Bytes → Digest) (leaf : Bytes) : List Level → Digest → Prop where
  | lowest {l : Level} {root : Digest} (holds : l.running = leaf) (hashed : hash l.input = root) :
    Leads hash leaf [l] root
  /-- Every other level holds the hash of the one below it. -/
  | above {l : Level} {ls : List Level} {d root : Digest} (below : Leads hash leaf ls d)
    (holds : l.running = d.1) (hashed : hash l.input = root) : Leads hash leaf (l :: ls) root

theorem Leads.ne_nil {ls : List Level} {root : Digest} (h : Leads hash leaf ls root) : ls ≠ [] := by
  cases h <;> simp

theorem levelInput_eq_ok {unit : ProofUnit} {running input : Bytes} :
    levelInput unit running = .ok input ↔ ∃ left right, siblingRow unit.left = .ok left ∧
      siblingRow unit.right = .ok right ∧ input = (Level.mk left running right).input := by
  simp only [levelInput, except_bind_eq_ok, pure, Except.pure, Except.ok.injEq]
  constructor
  · rintro ⟨left, hleft, right, hright, rfl⟩
    exact ⟨left, right, hleft, hright, rfl⟩
  · rintro ⟨left, right, hleft, hright, rfl⟩
    exact ⟨left, hleft, right, hright, rfl⟩

theorem levels_cons_eq_ok {unit : ProofUnit} {rest : MerkleProof} {running : Bytes}
    {ls : List Level} :
    levels hash running (unit :: rest) = .ok ls ↔ ∃ left right above,
      siblingRow unit.left = .ok left ∧ siblingRow unit.right = .ok right ∧
        levels hash (hash (Level.mk left running right).input).1 rest = .ok above ∧
        ls = Level.mk left running right :: above := by
  simp only [levels, except_bind_eq_ok, pure, Except.pure, Except.ok.injEq]
  constructor
  · rintro ⟨left, hleft, right, hright, above, habove, rfl⟩
    exact ⟨left, right, above, hleft, hright, habove, rfl⟩
  · rintro ⟨left, right, above, hleft, hright, habove, rfl⟩
    exact ⟨left, hleft, right, hright, above, habove, rfl⟩

/-- What stands above a path extends it. -/
theorem leads_of_climb {proof : MerkleProof} {ls : List Level} {d root : Digest}
    (hbelow : Leads hash leaf ls d) (h : climb hash d proof = .ok root) :
    ∃ above, levels hash d.1 proof = .ok above ∧ Leads hash leaf (above.reverse ++ ls) root := by
  induction proof generalizing ls d with
  | nil =>
    cases h
    exact ⟨[], rfl, hbelow⟩
  | cons unit rest ih =>
    obtain ⟨input, hinput, hrest⟩ := except_bind_eq_ok.mp h
    obtain ⟨left, right, hleft, hright, rfl⟩ := levelInput_eq_ok.mp hinput
    obtain ⟨above, habove, hleads⟩ := ih (hbelow.above (l := ⟨left, d.1, right⟩) rfl rfl) hrest
    refine ⟨_, levels_cons_eq_ok.mpr ⟨left, right, above, hleft, hright, habove, rfl⟩, ?_⟩
    rw [List.reverse_cons, List.append_assoc, List.singleton_append]
    exact hleads

/-- A root that was computed is that of the levels of the proof. -/
theorem leads_of_root {proof : MerkleProof} {root' : Digest} (h : root hash leaf proof = .ok root') :
    ∃ ls, levels hash leaf proof = .ok ls ∧ Leads hash leaf ls.reverse root' := by
  cases proof with
  | nil => cases h
  | cons unit rest =>
    obtain ⟨input, hinput, hrest⟩ := except_bind_eq_ok.mp h
    obtain ⟨left, right, hleft, hright, rfl⟩ := levelInput_eq_ok.mp hinput
    have hlowest : Leads hash leaf [⟨left, leaf, right⟩] (hash (Level.mk left leaf right).input) :=
      .lowest rfl rfl
    obtain ⟨above, habove, hleads⟩ := leads_of_climb hlowest hrest
    refine ⟨_, levels_cons_eq_ok.mpr ⟨left, right, above, hleft, hright, habove, rfl⟩, ?_⟩
    rw [List.reverse_cons]
    exact hleads

/-- The levels of a transaction that was accepted. -/
theorem leads_of_verifyTransaction {text txHash : String} {index : Option UInt64}
    {proof : MerkleProof} (h : verifyTransaction hash text txHash index proof = .ok true) :
    ∃ trusted leaf ls, parseRoot "transactions root" text = .ok trusted ∧
      transactionLeaf index txHash = .ok leaf ∧ levels hash leaf proof = .ok ls ∧
      transactionLevels hash index txHash proof = .ok ls ∧ Leads hash leaf ls.reverse trusted := by
  obtain ⟨trusted, leaf, htrusted, hleaf, hroot⟩ := verifyTransaction_eq_true.mp h
  obtain ⟨ls, hls, hleads⟩ := leads_of_root hroot
  refine ⟨trusted, leaf, ls, htrusted, hleaf, hls, ?_, hleads⟩
  rw [transactionLevels, hleaf]
  exact hls

/-! ## Two paths to one root -/

/-- Different inputs of two levels have the same hash. -/
def Collide (hash : Bytes → Digest) (ls ms : List Level) : Prop :=
  ∃ l ∈ ls, ∃ m ∈ ms, l.input ≠ m.input ∧ hash l.input = hash m.input

/-- Below the levels that they have in common, the paths part at two levels of the same hash. -/
def PartAt (hash : Bytes → Digest) (l m : Level) (ls ms : List Level) : Prop :=
  l ≠ m ∧ hash l.input = hash m.input ∧
    ∃ above below below', ls = below ++ l :: above ∧ ms = below' ++ m :: above

/-- The paths part where one and the same input is cut at other places. -/
def CutApart (hash : Bytes → Digest) (ls ms : List Level) : Prop :=
  ∃ l m, PartAt hash l m ls ms ∧ l.input = m.input

theorem PartAt.collide_or_cutApart {l m : Level} {ls ms : List Level} (h : PartAt hash l m ls ms) :
    Collide hash ls ms ∨ CutApart hash ls ms := by
  by_cases hinput : l.input = m.input
  · exact .inr ⟨l, m, h, hinput⟩
  · obtain ⟨-, hhash, above, below, below', rfl, rfl⟩ := h
    exact .inl ⟨l, by simp, m, by simp, hinput, hhash⟩

theorem PartAt.append {l m : Level} {ls ms : List Level} (h : PartAt hash l m ls ms)
    (top : List Level) : PartAt hash l m (ls ++ top) (ms ++ top) := by
  obtain ⟨hne, hhash, above, below, below', rfl, rfl⟩ := h
  exact ⟨hne, hhash, above ++ top, below, below', by simp, by simp⟩

/-- Two different highest levels of one hash part. -/
theorem part_of_ne {l m : Level} {ls ms : List Level} (hne : l ≠ m)
    (hhash : hash l.input = hash m.input) :
    ∃ l' m', PartAt hash l' m' (l :: ls).reverse (m :: ms).reverse :=
  ⟨l, m, hne, hhash, [], ls.reverse, ms.reverse, List.reverse_cons, List.reverse_cons⟩

variable {leaf₁ leaf₂ : Bytes} {ls₁ ls₂ : List Level} {root : Digest}

/-- Two paths to one root are the same, from the same leaf, or they part, or the shorter one ends at
a leaf that is as wide as a digest. -/
theorem Leads.eq_or_part (h₁ : Leads hash leaf₁ ls₁ root) (h₂ : Leads hash leaf₂ ls₂ root) :
    (leaf₁ = leaf₂ ∧ ls₁ = ls₂) ∨
      (ls₁.length ≠ ls₂.length ∧ (leaf₁.length = 32 ∨ leaf₂.length = 32)) ∨
      ∃ l m, PartAt hash l m ls₁.reverse ls₂.reverse := by
  induction h₁ generalizing ls₂ with
  | @lowest l root holds hashed =>
    cases h₂ with
    | @lowest m _ holds' hashed' =>
      by_cases hlm : l = m
      · subst hlm
        exact .inl ⟨holds.symm.trans holds', rfl⟩
      · exact .inr (.inr (part_of_ne hlm (hashed.trans hashed'.symm)))
    | @above m ms d _ below' holds' hashed' =>
      by_cases hlm : l = m
      · subst hlm
        have hpos := List.length_pos_iff.mpr below'.ne_nil
        have hwidth : leaf₁.length = 32 := by rw [← holds, holds', d.2]
        exact .inr (.inl ⟨by simp only [List.length_cons, List.length_nil]; omega, .inl hwidth⟩)
      · exact .inr (.inr (part_of_ne hlm (hashed.trans hashed'.symm)))
  | @above l ls d root below holds hashed ih =>
    cases h₂ with
    | @lowest m _ holds' hashed' =>
      by_cases hlm : l = m
      · subst hlm
        have hpos := List.length_pos_iff.mpr below.ne_nil
        have hwidth : leaf₂.length = 32 := by rw [← holds', holds, d.2]
        exact .inr (.inl ⟨by simp only [List.length_cons, List.length_nil]; omega, .inr hwidth⟩)
      · exact .inr (.inr (part_of_ne hlm (hashed.trans hashed'.symm)))
    | @above m ms d' _ below' holds' hashed' =>
      by_cases hlm : l = m
      · subst hlm
        -- The same level hands the same digest down, so the paths below have one root as well.
        obtain rfl : d = d' := Subtype.ext (holds.symm.trans holds')
        rcases ih below' with ⟨hleaf, rfl⟩ | ⟨hne, hw⟩ | ⟨l', m', hparts⟩
        · exact .inl ⟨hleaf, rfl⟩
        · exact .inr (.inl ⟨by simpa using hne, hw⟩)
        · refine .inr (.inr ⟨l', m', ?_⟩)
          rw [List.reverse_cons, List.reverse_cons]
          exact hparts.append [l]
      · exact .inr (.inr (part_of_ne hlm (hashed.trans hashed'.symm)))

/-! ## Leaves -/

/-- The index ends where the hash begins, however wide it is. -/
theorem transactionLeaf_inj {index₁ index₂ : Option UInt64} {txHash₁ txHash₂ : String} {leaf : Bytes}
    (h₁ : transactionLeaf index₁ txHash₁ = .ok leaf) (h₂ : transactionLeaf index₂ txHash₂ = .ok leaf) :
    index₁.getD 0 = index₂.getD 0 ∧ ∃ bytes, HexField.decode "transaction hash" txHash₁ = .ok bytes ∧
      HexField.decode "transaction hash" txHash₂ = .ok bytes := by
  obtain ⟨bytes₁, hbytes₁, hleaf₁⟩ := except_bind_eq_ok.mp h₁
  obtain ⟨bytes₂, hbytes₂, hleaf₂⟩ := except_bind_eq_ok.mp h₂
  simp only [pure, Except.pure, Except.ok.injEq] at hleaf₁ hleaf₂
  obtain ⟨hindex, rfl⟩ := Rlp.encodeNat_append_inj (hleaf₁.trans hleaf₂.symm)
  exact ⟨hindex, bytes₁, hbytes₁, hbytes₂⟩

end LedgerGateway.Merkle
