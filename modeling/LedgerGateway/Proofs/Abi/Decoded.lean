import LedgerGateway.Proofs.Abi.RoundTrip
import LedgerGateway.Proofs.Except

/-!
# What is read belongs to its type

The reader takes words as they are, and a word may be no value of a type of fewer bits. Of a type
that has a value for every word, whatever is read belongs to it: numbers of 256 bits, byte strings and
texts, and lists of such. Where every tuple has a place, as many values are read as there are types.
-/

namespace LedgerGateway.Abi.Ty

mutual

/-- The type has a value for every word that is read for it. -/
def isWide : Ty → Bool
  | int bits | uint bits => bits == 256
  | fixedBytes length => length ≤ 32
  | array item => item.isWide
  | fixedArray item _ => item.isWide
  | tuple items => areWide items
  | bool | address | function | bytes | string => true

def areWide : List Ty → Bool
  | [] => true
  | item :: rest => item.isWide && areWide rest

end

/-- Whatever is read as the type belongs to it. -/
def ReadsOwn (t : Ty) : Prop :=
  ∀ (frame : Frame) (rest rest' : Bytes) (v : Value), t.decode frame rest = .ok (v, rest') →
    HasType v t

/-! ## Words -/

theorem length_of_takeWord {rest rest' w : Bytes} (h : takeWord rest = .ok (w, rest')) :
    w.length = 32 := by
  rw [takeWord, takeBytes] at h
  split at h
  · cases h
  · rename_i hlong
    cases h
    rw [List.length_take] at hlong ⊢
    omega

theorem ReadsOwn.of_word {t : Ty} {f : Bytes → Value}
    (hvalue : ∀ w : Bytes, w.length = 32 → HasType (f w) t)
    (hdecode : ∀ frame rest, t.decode frame rest = do
      let (w, rest) ← takeWord rest
      pure (f w, rest)) : t.ReadsOwn := by
  intro frame rest rest' v h
  rw [hdecode] at h
  obtain ⟨⟨w, left⟩, hword, h⟩ := except_bind_eq_ok.mp h
  cases h
  exact hvalue w (length_of_takeWord hword)

theorem readsOwn_bool : bool.ReadsOwn :=
  .of_word (f := fun w => .bool (Bytes.toNat w != 0)) (fun _ _ => .bool _)
    fun _ _ => by rw [decode]

theorem readsOwn_int : (int 256).ReadsOwn :=
  .of_word (fun _ _ => .int (BitVec.le_toInt _) BitVec.toInt_lt) fun _ _ => by rw [decode]

theorem readsOwn_uint : (uint 256).ReadsOwn :=
  .of_word (fun _ _ => .uint (BitVec.isLt _)) fun _ _ => by rw [decode]

theorem readsOwn_fixedBytes {length : Nat} (h : length ≤ 32) : (fixedBytes length).ReadsOwn := by
  refine .of_word (f := fun w => .fixedBytes (w.take length)) (fun w hw => ?_)
    fun _ _ => by rw [decode]
  refine hasType_fixedBytes_iff.mpr ⟨w.take length, rfl, ?_⟩
  rw [List.length_take, hw]
  exact Nat.min_eq_left h

theorem readsOwn_address : address.ReadsOwn :=
  .of_word (f := fun w => .address (SizedBytes.ofNat 20 (Bytes.toNat w))) (fun _ _ => .address _)
    fun _ _ => by rw [decode]

theorem readsOwn_function : function.ReadsOwn :=
  .of_word (f := fun w => .function (SizedBytes.ofNat 24 (Bytes.toNat (w.take 24))))
    (fun _ _ => .function _) fun _ _ => by rw [decode]

theorem readsOwn_bytes : bytes.ReadsOwn := by
  intro frame rest rest' v h
  rw [decode] at h
  obtain ⟨⟨child, left⟩, -, h⟩ := except_bind_eq_ok.mp h
  obtain ⟨b, -, h⟩ := except_bind_eq_ok.mp h
  cases h
  exact .bytes b

theorem readsOwn_string : string.ReadsOwn := by
  intro frame rest rest' v h
  rw [decode] at h
  obtain ⟨⟨child, left⟩, -, h⟩ := except_bind_eq_ok.mp h
  obtain ⟨b, -, h⟩ := except_bind_eq_ok.mp h
  cases h
  exact .string _

/-! ## Lists -/

theorem forall₂_of_decodeEach {ts : List Ty} (hts : ∀ t ∈ ts, t.ReadsOwn) {frame : Frame}
    {rest rest' : Bytes} {vs : List Value} (h : decodeEach frame ts rest = .ok (vs, rest')) :
    List.Forall₂ HasType vs ts := by
  induction ts generalizing rest vs with
  | nil =>
    cases h
    exact .nil
  | cons t ts ih =>
    rw [decodeEach] at h
    obtain ⟨⟨v, left⟩, hv, h⟩ := except_bind_eq_ok.mp h
    obtain ⟨⟨others, left'⟩, hothers, h⟩ := except_bind_eq_ok.mp h
    cases h
    obtain ⟨ht, hts⟩ := List.forall_mem_cons.mp hts
    exact .cons (ht _ _ _ _ hv) (ih hts hothers)

/-- Items of one type are a row of values of that type. -/
theorem hasType_of_takeMany {item : Ty} (hitem : item.ReadsOwn) {frame : Frame} {length : Nat}
    {rest rest' : Bytes} {items : List Value}
    (h : takeMany (item.decode frame) length rest = .ok (items, rest')) :
    items.length = length ∧ ∀ v ∈ items, HasType v item := by
  rw [takeMany_eq_decodeEach] at h
  have hreplicated : ∀ t ∈ List.replicate length item, t.ReadsOwn := by
    intro t ht
    rwa [List.eq_of_mem_replicate ht]
  obtain ⟨hlength, heach⟩ := List.forall₂_iff_get.mp (forall₂_of_decodeEach hreplicated h)
  rw [List.length_replicate] at hlength
  refine ⟨hlength, fun v hv => ?_⟩
  obtain ⟨i, hi, rfl⟩ := List.getElem_of_mem hv
  simpa using heach i hi (by simpa [← hlength] using hi)

theorem readsOwn_array {item : Ty} (hitem : item.ReadsOwn) : (array item).ReadsOwn := by
  intro frame rest rest' v h
  rw [decode] at h
  obtain ⟨⟨child, left⟩, -, h⟩ := except_bind_eq_ok.mp h
  obtain ⟨⟨length, body⟩, -, h⟩ := except_bind_eq_ok.mp h
  dsimp only at h
  split at h
  · cases h
    exact hasType_array_iff.mpr ⟨[], rfl, by simp⟩
  · split at h
    · cases h
    · obtain ⟨inner, -, h⟩ := except_bind_eq_ok.mp h
      obtain ⟨⟨items, left'⟩, hitems, h⟩ := except_bind_eq_ok.mp h
      cases h
      exact hasType_array_iff.mpr ⟨items, rfl, (hasType_of_takeMany hitem hitems).2⟩

theorem readsOwn_fixedArray {item : Ty} (hitem : item.ReadsOwn) (length : Nat) :
    (fixedArray item length).ReadsOwn := by
  intro frame rest rest' v h
  rw [decode] at h
  split at h
  all_goals
    obtain ⟨_, -, h⟩ := except_bind_eq_ok.mp h
    obtain ⟨⟨items, left⟩, hitems, h⟩ := except_bind_eq_ok.mp h
    cases h
    exact hasType_fixedArray_iff.mpr ⟨items, rfl, hasType_of_takeMany hitem hitems⟩

theorem readsOwn_tuple {items : List Ty} (hitems : ∀ t ∈ items, t.ReadsOwn) :
    (tuple items).ReadsOwn := by
  intro frame rest rest' v h
  rw [decode] at h
  split at h
  all_goals
    obtain ⟨_, -, h⟩ := except_bind_eq_ok.mp h
    obtain ⟨⟨values, left⟩, hvalues, h⟩ := except_bind_eq_ok.mp h
    cases h
    exact hasType_tuple_iff.mpr ⟨values, rfl, forall₂_of_decodeEach hitems hvalues⟩

mutual

theorem readsOwn_of_isWide : ∀ t : Ty, t.isWide = true → t.ReadsOwn
  | .bool, _ => readsOwn_bool
  | .int bits, h => by
    obtain rfl : bits = 256 := by simpa [isWide] using h
    exact readsOwn_int
  | .uint bits, h => by
    obtain rfl : bits = 256 := by simpa [isWide] using h
    exact readsOwn_uint
  | .fixedBytes length, h => readsOwn_fixedBytes (by simpa [isWide] using h)
  | .address, _ => readsOwn_address
  | .function, _ => readsOwn_function
  | .bytes, _ => readsOwn_bytes
  | .string, _ => readsOwn_string
  | .array item, h => readsOwn_array (readsOwn_of_isWide item (by simpa [isWide] using h))
  | .fixedArray item length, h =>
    readsOwn_fixedArray (readsOwn_of_isWide item (by simpa [isWide] using h)) length
  | .tuple items, h => readsOwn_tuple (readsOwn_of_areWide items (by simpa [isWide] using h))

theorem readsOwn_of_areWide : ∀ ts : List Ty, areWide ts = true → ∀ t ∈ ts, t.ReadsOwn
  | [], _ => by simp
  | item :: rest, h => by
    obtain ⟨hitem, hrest⟩ := Bool.and_eq_true_iff.mp (by simpa [areWide] using h)
    exact List.forall_mem_cons.mpr
      ⟨readsOwn_of_isWide item hitem, readsOwn_of_areWide rest hrest⟩

end

/-! ## Whole inputs -/

/-- Of hollow types nothing is read, but no filled type is hollow, so that filled types are read one
after the other from the front of the input. -/
theorem decodeEach_of_decodeAll {ts : List Ty} (hfilled : areFilled ts = true) {data : Bytes}
    {vs : List Value} (h : decodeAll ts data = .ok vs) :
    ∃ rest, decodeEach (.whole data) ts data = .ok (vs, rest) := by
  unfold decodeAll at h
  split at h
  · rename_i hhollow
    cases h
    by_cases hne : ts = []
    · subst hne
      exact ⟨data, by rw [decodeEach]⟩
    · rw [allHollow_of_areFilled ts hfilled hne] at hhollow
      cases hhollow
  · split at h
    · cases h
    · obtain ⟨⟨values, rest⟩, heach, rfl⟩ := map_eq_ok.mp h
      exact ⟨rest, heach⟩

theorem forall₂_of_decodeAll {ts : List Ty} (hwide : areWide ts = true)
    (hfilled : areFilled ts = true) {data : Bytes} {vs : List Value}
    (h : decodeAll ts data = .ok vs) : List.Forall₂ HasType vs ts := by
  obtain ⟨rest, heach⟩ := decodeEach_of_decodeAll hfilled h
  exact forall₂_of_decodeEach (readsOwn_of_areWide ts hwide) heach

end LedgerGateway.Abi.Ty
