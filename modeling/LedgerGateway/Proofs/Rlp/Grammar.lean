import LedgerGateway.Proofs.Rlp.Reader
import LedgerGateway.Rlp.Grammar

/-!
# Every item has one spelling

`decode?_eq_some_iff`: bytes are read as an item if they are its encoding, and only then. The
inductions follow the depth that the reader allows; the bytes of an item are more than those of every
item inside it.
-/

namespace LedgerGateway.Rlp

theorem encodeAll_eq_flatMap (items : List Item) :
    Item.encodeAll items = items.flatMap Item.encode := by
  induction items with
  | nil => rfl
  | cons item items ih => rw [Item.encodeAll, ih, List.flatMap_cons]

theorem encodeAll_append (items items' : List Item) :
    Item.encodeAll (items ++ items') = Item.encodeAll items ++ Item.encodeAll items' := by
  simp only [encodeAll_eq_flatMap, List.flatMap_append]

theorem length_encode_pos (item : Item) : 0 < item.encode.length := by
  cases item with
  | bytes b =>
    rw [Item.encode]
    exact length_encodeBytes_pos b
  | list items =>
    have hpos := length_headerBytes_pos 0xc0 (Item.encodeAll items).length
    rw [Item.encode, encodeList, List.length_append]
    omega

theorem length_encode_le_of_mem {item : Item} {items : List Item} (h : item ∈ items) :
    item.encode.length ≤ (Item.encodeAll items).length := by
  obtain ⟨front, back, rfl⟩ := List.append_of_mem h
  rw [encodeAll_append, Item.encodeAll]
  simp only [List.length_append]
  omega

theorem length_le_length_encodeAll (items : List Item) :
    items.length ≤ (Item.encodeAll items).length := by
  induction items with
  | nil => simp
  | cons item items ih =>
    have hpos := length_encode_pos item
    rw [Item.encodeAll, List.length_cons, List.length_append]
    omega

theorem length_encodeAll_lt (items : List Item) :
    (Item.encodeAll items).length < (Item.list items).encode.length := by
  have hpos := length_headerBytes_pos 0xc0 (Item.encodeAll items).length
  rw [Item.encode, encodeList, List.length_append]
  omega

/-! ## What was written is read -/

theorem readRow_encodeAll {read : Bytes → Option (Item × Bytes)} {items : List Item} {fuel : Nat}
    (hfuel : items.length ≤ fuel)
    (h : ∀ item ∈ items, ∀ rest, read (item.encode ++ rest) = some (item, rest)) :
    readRow read fuel (Item.encodeAll items) = some items := by
  induction items generalizing fuel with
  | nil =>
    rw [Item.encodeAll]
    unfold readRow
    rfl
  | cons item items ih =>
    obtain ⟨fuel, rfl⟩ : ∃ k, fuel = k + 1 := ⟨fuel - 1, by rw [List.length_cons] at hfuel; omega⟩
    have hhead := h item List.mem_cons_self (Item.encodeAll items)
    have htail : readRow read fuel (Item.encodeAll items) = some items :=
      ih (by rw [List.length_cons] at hfuel; omega)
        fun other hmem => h other (List.mem_cons_of_mem _ hmem)
    have hpos := length_encode_pos item
    rw [Item.encodeAll]
    cases hbytes : item.encode ++ Item.encodeAll items with
    | nil =>
      have hlen := congrArg List.length hbytes
      rw [List.length_append, List.length_nil] at hlen
      omega
    | cons b input =>
      rw [hbytes] at hhead
      rw [readRow, hhead]
      simp only [Option.bind_eq_bind, Option.bind_some, htail]

/-- An item that was written is read back, and what follows it is left over. -/
theorem readItem_encode {depth : Nat} {item : Item} (hdepth : item.encode.length ≤ depth)
    (hsize : item.encode.length < UInt64.size) (rest : Bytes) :
    readItem depth (item.encode ++ rest) = some (item, rest) := by
  induction depth generalizing item rest with
  | zero =>
    have hpos := length_encode_pos item
    omega
  | succ depth ih =>
    cases item with
    | bytes b =>
      rw [Item.encode] at hsize ⊢
      have hlen := length_encodeBytes b
      have hread := readHeader_encodeBytes (b := b) (by omega) rest
      simp [readItem, hread, Except.toOption]
    | list items =>
      have hlt := length_encodeAll_lt items
      have hle : (Item.encodeAll items).length ≤ (Item.encodeAll items ++ rest).length := by
        rw [List.length_append]
        omega
      have hread := readHeader_headerBytes true (n := (Item.encodeAll items).length) (by omega)
        (by simp) (Item.encodeAll items ++ rest)
      rw [Header.within_of_le hle] at hread
      have hrow := readRow_encodeAll (length_le_length_encodeAll items) fun item hmem rest => by
        have hmem := length_encode_le_of_mem hmem
        exact ih (by omega) (by omega) rest
      rw [show emptyTag true = 0xc0 from rfl] at hread
      rw [Item.encode, encodeList, List.append_assoc]
      simp [readItem, hread, Except.toOption, hrow]

/-! ## Only what was written is read -/

theorem eq_encodeAll_of_readRow {read : Bytes → Option (Item × Bytes)} {fuel : Nat} {input : Bytes}
    {items : List Item}
    (hread : ∀ input item rest, read input = some (item, rest) → input = item.encode ++ rest)
    (h : readRow read fuel input = some items) : input = Item.encodeAll items := by
  induction fuel generalizing input items with
  | zero =>
    cases input with
    | nil =>
      cases h
      rfl
    | cons b input => cases h
  | succ fuel ih =>
    cases input with
    | nil =>
      cases h
      rfl
    | cons b input =>
      rw [readRow] at h
      simp only [Option.bind_eq_bind, Option.bind_eq_some_iff, Option.some.injEq] at h
      obtain ⟨⟨item, rest⟩, hitem, items, hitems, rfl⟩ := h
      have hrest : rest = Item.encodeAll items := ih hitems
      rw [hread _ _ _ hitem, hrest, Item.encodeAll]

/-- An item is read from its own spelling only. -/
theorem eq_encode_of_readItem {depth : Nat} {input rest : Bytes} {item : Item}
    (h : readItem depth input = some (item, rest)) : input = item.encode ++ rest := by
  induction depth generalizing input rest item with
  | zero => cases h
  | succ depth ih =>
    rw [readItem] at h
    simp only [Option.bind_eq_bind, Option.bind_eq_some_iff, toOption_eq_some] at h
    obtain ⟨⟨header, tail⟩, hheader, h⟩ := h
    obtain ⟨hle, hlist, hbytes⟩ := spelled_of_readHeader hheader
    simp only at h hle hlist hbytes
    by_cases hkind : header.isList = true
    · rw [if_pos hkind] at h
      simp only [Option.bind_eq_some_iff, Option.some.injEq, Prod.mk.injEq] at h
      obtain ⟨items, hitems, rfl, rfl⟩ := h
      have hpayload : tail.take header.length = Item.encodeAll items :=
        eq_encodeAll_of_readRow (fun input item rest hread => ih hread) hitems
      have hlen : (Item.encodeAll items).length = header.length := by
        rw [← hpayload, List.length_take]
        exact Nat.min_eq_left hle
      rw [hlist hkind, Item.encode, encodeList, hlen, List.append_assoc, ← hpayload,
        List.take_append_drop]
    · rw [if_neg hkind, Option.some.injEq, Prod.mk.injEq] at h
      obtain ⟨rfl, rfl⟩ := h
      rw [Item.encode]
      exact hbytes (by simpa using hkind)

/-! ## Whole byte strings -/

theorem decode?_encode {item : Item} (hsize : item.encode.length < UInt64.size) :
    Item.decode? item.encode = some item := by
  have hread := readItem_encode (Nat.le_refl item.encode.length) hsize []
  rw [List.append_nil] at hread
  rw [Item.decode?, hread]

theorem eq_encode_of_decode? {input : Bytes} {item : Item} (h : Item.decode? input = some item) :
    input = item.encode := by
  unfold Item.decode? at h
  split at h
  · rename_i hread
    cases h
    rw [eq_encode_of_readItem hread, List.append_nil]
  · cases h

/-- Bytes are read as an item if they are its encoding, and only then. -/
theorem decode?_eq_some_iff {item : Item} (hsize : item.encode.length < UInt64.size) (input : Bytes) :
    Item.decode? input = some item ↔ input = item.encode := by
  constructor
  · exact eq_encode_of_decode?
  · rintro rfl
    exact decode?_encode hsize

theorem encode_inj {item item' : Item} (hsize : item.encode.length < UInt64.size)
    (h : item.encode = item'.encode) : item = item' := by
  have hread := decode?_encode hsize
  rw [h, decode?_encode (h ▸ hsize), Option.some.injEq] at hread
  exact hread.symm

end LedgerGateway.Rlp
