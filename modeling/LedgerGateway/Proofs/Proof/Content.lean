import LedgerGateway.Proofs.Except
import LedgerGateway.Proofs.Proof.Gas
import LedgerGateway.Proofs.Rlp.Grammar
import Mathlib.Data.List.Forall2

/-!
# What the encoding of a receipt holds

`ReceiptContent` has the values behind the texts of a receipt: bytes behind digits and numbers behind
numerals. The encoding of a receipt is the one spelling of these values as a list of items, so it can
be read back, and receipts of one encoding show the same values. `encode_eq_ok_iff` says which receipts
have an encoding.
-/

namespace LedgerGateway

open Text

/-! ## Contents -/

/-- The values in the encoding of a log. -/
structure LogContent where
  address : Bytes
  topics : List Bytes
  data : Bytes
  deriving DecidableEq

/-- The values in the encoding of a receipt; the gas that remains is missing where the encoding does
not have it. -/
structure ReceiptContent where
  root : Bytes
  gasUsed : Nat
  contractAddress : Bytes
  logsBloom : Bytes
  status : UInt64
  output : Bytes
  remainGas : Option Nat
  logs : List LogContent
  deriving DecidableEq

/-- A log as a list of its address, its topics and its data. -/
def LogContent.item (l : LogContent) : Rlp.Item :=
  .list [.bytes l.address, .list (l.topics.map .bytes), .bytes l.data]

/-- A receipt as a list of its values in order. -/
def ReceiptContent.item (c : ReceiptContent) : Rlp.Item :=
  .list <|
    [.bytes c.root, .ofNat c.gasUsed, .bytes c.contractAddress, .bytes c.logsBloom,
     .ofNat c.status.toNat, .bytes c.output] ++
    c.remainGas.toList.map .ofNat ++ [.list (c.logs.map LogContent.item)]

theorem LogContent.item_injective {l m : LogContent} (h : l.item = m.item) : l = m := by
  obtain ⟨address, topics, data⟩ := l
  obtain ⟨address', topics', data'⟩ := m
  simp only [LogContent.item, Rlp.Item.list.injEq, List.cons.injEq, Rlp.Item.bytes.injEq,
    and_true] at h
  obtain ⟨rfl, htopics, rfl⟩ := h
  obtain rfl := (List.map_inj_right fun _ _ => Rlp.Item.bytes.inj).mp htopics
  rfl

theorem ofNat_item_injective {m n : Nat} (h : Rlp.Item.ofNat m = Rlp.Item.ofNat n) : m = n :=
  Bytes.ofNat_injective (Rlp.Item.bytes.inj h)

/-- Every value can be told from the items. -/
theorem ReceiptContent.item_injective {c d : ReceiptContent} (h : c.item = d.item) : c = d := by
  obtain ⟨root, gasUsed, contract, bloom, status, output, remain, logs⟩ := c
  obtain ⟨root', gasUsed', contract', bloom', status', output', remain', logs'⟩ := d
  simp only [item, Rlp.Item.list.injEq, List.cons_append, List.nil_append, List.cons.injEq,
    Rlp.Item.bytes.injEq] at h
  obtain ⟨rfl, hgas, rfl, rfl, hstatus, rfl, hrest⟩ := h
  obtain rfl := ofNat_item_injective hgas
  obtain rfl := UInt64.toNat_inj.mp (ofNat_item_injective hstatus)
  -- The logs are the last item, whether or not an amount of gas stands before them.
  obtain ⟨hremain, hlogs⟩ := List.append_inj' hrest rfl
  simp only [List.cons.injEq, Rlp.Item.list.injEq, and_true] at hlogs
  obtain rfl := (List.map_inj_right fun _ _ => LogContent.item_injective).mp hlogs
  have hlist := (List.map_inj_right fun _ _ => ofNat_item_injective).mp hremain
  obtain rfl : remain = remain' := by
    cases remain with
    | none =>
      cases remain' with
      | none => rfl
      | some n => cases hlist
    | some m =>
      cases remain' with
      | none => cases hlist
      | some n =>
        rw [Option.toList_some, Option.toList_some, List.singleton_inj] at hlist
        rw [hlist]
  rfl

/-! ## Receipts that show a content -/

/-- The texts of a log stand for the values. -/
structure Log.Shows (log : Log) (l : LogContent) : Prop where
  address : HexField.decode "log address" log.address = .ok l.address
  topics : List.Forall₂ (fun text bytes => HexField.decode "log topic" text = .ok bytes)
    log.topics l.topics
  data : HexField.decode "log data" log.data = .ok l.data

/-- The texts of a receipt stand for the values. -/
structure ReceiptEncoding.Shows (e : ReceiptEncoding) (r : Receipt) (c : ReceiptContent) : Prop where
  root : HexField.decode "root" r.root = .ok c.root
  gasUsed : gasUsed? r.gasUsed = some c.gasUsed
  contractAddress : HexField.decode "contractAddress" r.contractAddress = .ok c.contractAddress
  logsBloom : HexField.decode "logsBloom" r.logsBloom = .ok c.logsBloom
  status : r.status = c.status
  output : HexField.decode "output" r.output = .ok c.output
  remainGas : c.remainGas = if e.remainGas then remainGas? r.remainGas else none
  remainGas_isSome : c.remainGas.isSome = e.remainGas
  logs : List.Forall₂ Log.Shows r.logs c.logs

/-- The texts of a log stand for one content. -/
theorem Log.shows_rightUnique : Relator.RightUnique Log.Shows := by
  rintro log ⟨address, topics, data⟩ ⟨address', topics', data'⟩ h h'
  have htopics : Relator.RightUnique fun text bytes =>
      HexField.decode "log topic" text = .ok bytes :=
    fun _ _ _ hbytes hbytes' => Except.ok.inj (hbytes.symm.trans hbytes')
  obtain rfl : address = address' := Except.ok.inj (h.address.symm.trans h'.address)
  obtain rfl : topics = topics' := htopics.forall₂ h.topics h'.topics
  obtain rfl : data = data' := Except.ok.inj (h.data.symm.trans h'.data)
  rfl

/-- The texts of a receipt stand for one content. -/
theorem ReceiptEncoding.Shows.unique {e : ReceiptEncoding} {r : Receipt} {c d : ReceiptContent}
    (hc : e.Shows r c) (hd : e.Shows r d) : c = d := by
  obtain ⟨root, gasUsed, contract, bloom, status, output, remain, logs⟩ := c
  obtain ⟨root', gasUsed', contract', bloom', status', output', remain', logs'⟩ := d
  obtain rfl : root = root' := Except.ok.inj (hc.root.symm.trans hd.root)
  obtain rfl : gasUsed = gasUsed' := Option.some.inj (hc.gasUsed.symm.trans hd.gasUsed)
  obtain rfl : contract = contract' :=
    Except.ok.inj (hc.contractAddress.symm.trans hd.contractAddress)
  obtain rfl : bloom = bloom' := Except.ok.inj (hc.logsBloom.symm.trans hd.logsBloom)
  obtain rfl : status = status' := hc.status.symm.trans hd.status
  obtain rfl : output = output' := Except.ok.inj (hc.output.symm.trans hd.output)
  obtain rfl : remain = remain' := hc.remainGas.trans hd.remainGas.symm
  obtain rfl : logs = logs' := Log.shows_rightUnique.forall₂ hc.logs hd.logs
  rfl

/-! ## Items of a receipt -/

namespace ReceiptEncoding

/-- The items of a list are read one after another. -/
theorem items_eq_ok {α γ : Type} {f : α → Except ProofError Rlp.Item}
    {g : List α → Except ProofError (List Rlp.Item)} {R : α → γ → Prop} {toItem : γ → Rlp.Item}
    (hnil : g [] = .ok [])
    (hcons : ∀ a as, g (a :: as) = do
      let item ← f a
      let items ← g as
      pure (item :: items))
    (hread : ∀ a item, f a = .ok item ↔ ∃ c, R a c ∧ item = toItem c) {as : List α}
    {items : List Rlp.Item} :
    g as = .ok items ↔ ∃ cs, List.Forall₂ R as cs ∧ items = cs.map toItem := by
  induction as generalizing items with
  | nil => simp [hnil, eq_comm]
  | cons a as ih =>
    rw [hcons]
    simp only [except_bind_eq_ok, hread, ih, List.forall₂_cons_left_iff]
    constructor
    · rintro ⟨_, ⟨c, hc, rfl⟩, _, ⟨cs, hcs, rfl⟩, h⟩
      cases h
      exact ⟨c :: cs, ⟨c, cs, hc, hcs, rfl⟩, rfl⟩
    · rintro ⟨_, ⟨c, cs, hc, hcs, rfl⟩, rfl⟩
      exact ⟨_, ⟨c, hc, rfl⟩, _, ⟨cs, hcs, rfl⟩, rfl⟩

theorem topicItems_eq_ok {texts : List String} {items : List Rlp.Item} :
    topicItems texts = .ok items ↔
      ∃ topics, List.Forall₂ (fun text bytes => HexField.decode "log topic" text = .ok bytes)
        texts topics ∧ items = topics.map .bytes := by
  refine items_eq_ok (f := fun text => (HexField.decode "log topic" text).map .bytes) rfl ?_ ?_
  · intro text texts
    rw [topicItems]
    cases HexField.decode "log topic" text <;> rfl
  · intro text item
    rw [map_eq_ok]
    simp only [eq_comm]

theorem logItem_eq_ok {log : Log} {item : Rlp.Item} :
    logItem log = .ok item ↔ ∃ l, log.Shows l ∧ item = l.item := by
  constructor
  · intro h
    obtain ⟨items, hitems, h⟩ := except_bind_eq_ok.mp h
    obtain ⟨address, haddress, h⟩ := except_bind_eq_ok.mp h
    obtain ⟨data, hdata, h⟩ := except_bind_eq_ok.mp h
    cases h
    obtain ⟨topics, htopics, rfl⟩ := topicItems_eq_ok.mp hitems
    exact ⟨⟨address, topics, data⟩, ⟨haddress, htopics, hdata⟩, rfl⟩
  · rintro ⟨l, hl, rfl⟩
    have htopics : topicItems log.topics = .ok (l.topics.map .bytes) :=
      topicItems_eq_ok.mpr ⟨l.topics, hl.topics, rfl⟩
    rw [logItem, htopics, hl.address, hl.data]
    rfl

theorem logItems_eq_ok {logs : List Log} {items : List Rlp.Item} :
    logItems logs = .ok items ↔
      ∃ contents, List.Forall₂ Log.Shows logs contents ∧ items = contents.map LogContent.item :=
  items_eq_ok (g := logItems) rfl (fun _ _ => rfl) fun _ _ => logItem_eq_ok

/-- The gas that remains is put behind a mark together with the blanks in front of it. -/
def misreads (e : ReceiptEncoding) (r : Receipt) : Bool := e.remainGas && r.remainGas.any isIndented

theorem remainGasItems_eq_ok {e : ReceiptEncoding} {r n : Receipt} {items : List Rlp.Item}
    (hn : n.remainGas = r.remainGas.map normalizeRemainGas) :
    e.remainGasItems n = .ok items ↔
      e.misreads r = false ∧ ∃ remain : Option Nat, (∀ m ∈ remain, m < Wide.bound) ∧
        remain = (if e.remainGas then remainGas? r.remainGas else none) ∧
        remain.isSome = e.remainGas ∧ items = remain.toList.map .ofNat := by
  rw [remainGasItems, misreads]
  cases e.remainGas with
  | false =>
    simp only [Bool.false_eq_true, if_false, Bool.false_and, true_and, Except.ok.injEq]
    constructor
    · rintro rfl
      exact ⟨none, by simp, rfl, rfl, rfl⟩
    · rintro ⟨remain, -, rfl, -, rfl⟩
      rfl
  | true =>
    simp only [if_true, Bool.true_and, except_bind_eq_ok, hn, quantity_remainGas]
    constructor
    · rintro ⟨v, ⟨hplain, hv⟩, h⟩
      cases h
      exact ⟨hplain, some v.toNat, by simpa using v.isLt, hv.symm, rfl, rfl⟩
    · rintro ⟨hplain, remain, hlt, hremain, hsome, rfl⟩
      obtain ⟨m, rfl⟩ := Option.isSome_iff_exists.mp hsome
      obtain ⟨v, rfl⟩ := exists_toNat_eq (hlt m rfl)
      exact ⟨v, ⟨hplain, hremain.symm⟩, rfl⟩

end ReceiptEncoding

/-- The amounts of gas are numbers of 256 bits. -/
structure ReceiptContent.Fits (c : ReceiptContent) : Prop where
  gasUsed : c.gasUsed < Wide.bound
  remainGas : ∀ n ∈ c.remainGas, n < Wide.bound

namespace ReceiptEncoding

/-- A receipt is encoded exactly if it shows a content whose numbers fit, and is not misread. -/
theorem item_eq_ok_iff {e : ReceiptEncoding} {receipt : Receipt} {item : Rlp.Item} :
    e.item receipt = .ok item ↔
      e.misreads receipt = false ∧ ∃ c, e.Shows receipt c ∧ c.Fits ∧ item = c.item := by
  constructor
  · intro h
    obtain ⟨r, hnormal, h⟩ := except_bind_eq_ok.mp h
    obtain ⟨normal, hgas, hr⟩ := except_bind_eq_ok.mp hnormal
    obtain ⟨root, hroot, h⟩ := except_bind_eq_ok.mp h
    obtain ⟨gasUsed, hgasUsed, h⟩ := except_bind_eq_ok.mp h
    obtain ⟨contract, hcontract, h⟩ := except_bind_eq_ok.mp h
    obtain ⟨bloom, hbloom, h⟩ := except_bind_eq_ok.mp h
    obtain ⟨output, houtput, h⟩ := except_bind_eq_ok.mp h
    obtain ⟨remainItems, hremain, h⟩ := except_bind_eq_ok.mp h
    obtain ⟨logItems, hlogs, h⟩ := except_bind_eq_ok.mp h
    cases h
    cases hr
    have hvalue := quantity_gasUsed.mp ⟨normal, hgas, hgasUsed⟩
    obtain ⟨hplain, remain, hlt, hleft, hsome, rfl⟩ := (remainGasItems_eq_ok rfl).mp hremain
    obtain ⟨logs, hshown, rfl⟩ := logItems_eq_ok.mp hlogs
    exact ⟨hplain, ⟨root, gasUsed.toNat, contract, bloom, receipt.status, output, remain, logs⟩,
      ⟨hroot, hvalue, hcontract, hbloom, rfl, houtput, hleft, hsome, hshown⟩,
      ⟨gasUsed.isLt, hlt⟩, rfl⟩
  · rintro ⟨hplain, c, hc, hfits, rfl⟩
    obtain ⟨v, hv⟩ := exists_toNat_eq hfits.gasUsed
    obtain ⟨normal, hnormal, hgas⟩ := quantity_gasUsed.mpr (hv ▸ hc.gasUsed)
    have hremain : ∀ n : Receipt, n.remainGas = receipt.remainGas.map normalizeRemainGas →
        e.remainGasItems n = .ok (c.remainGas.toList.map .ofNat) := fun n hn =>
      (remainGasItems_eq_ok hn).mpr
        ⟨hplain, c.remainGas, hfits.remainGas, hc.remainGas, hc.remainGas_isSome, rfl⟩
    have hlogs : logItems receipt.logs = .ok (c.logs.map LogContent.item) :=
      logItems_eq_ok.mpr ⟨c.logs, hc.logs, rfl⟩
    rw [item, normalize, hnormal]
    simp only [bind, Except.bind, pure, Except.pure, hc.root, hgas, hc.contractAddress, hc.logsBloom,
      hc.output, hremain, hlogs, hc.status, ReceiptContent.item, hv]

theorem shows_of_item {e : ReceiptEncoding} {receipt : Receipt} {item : Rlp.Item}
    (h : e.item receipt = .ok item) : ∃ c, e.Shows receipt c ∧ item = c.item := by
  obtain ⟨-, c, hc, -, hitem⟩ := item_eq_ok_iff.mp h
  exact ⟨c, hc, hitem⟩

/-- The encoding of a receipt is the encoding of what it shows. -/
theorem encode_eq_ok_iff {e : ReceiptEncoding} {receipt : Receipt} {bytes : Bytes} :
    e.encode receipt = .ok bytes ↔
      e.misreads receipt = false ∧ ∃ c, e.Shows receipt c ∧ c.Fits ∧ bytes = c.item.encode := by
  rw [encode, except_bind_eq_ok]
  simp only [item_eq_ok_iff]
  constructor
  · rintro ⟨_, ⟨hplain, c, hc, hfits, rfl⟩, h⟩
    cases h
    exact ⟨hplain, c, hc, hfits, rfl⟩
  · rintro ⟨hplain, c, hc, hfits, rfl⟩
    exact ⟨_, ⟨hplain, c, hc, hfits, rfl⟩, rfl⟩

theorem shows_of_encode {e : ReceiptEncoding} {receipt : Receipt} {bytes : Bytes}
    (h : e.encode receipt = .ok bytes) : ∃ c, e.Shows receipt c ∧ bytes = c.item.encode := by
  obtain ⟨-, c, hc, -, hbytes⟩ := encode_eq_ok_iff.mp h
  exact ⟨c, hc, hbytes⟩

/-- The encoding of a receipt is the only spelling of its content, and another receipt has the same
encoding exactly if it shows the same content. -/
theorem encode_faithful {e : ReceiptEncoding} {receipt : Receipt} {bytes : Bytes}
    (h : e.encode receipt = .ok bytes) (hsize : bytes.length < UInt64.size) :
    ∃ c, e.Shows receipt c ∧
      (∀ input, Rlp.Item.decode? input = some c.item ↔ input = bytes) ∧
      ∀ other otherBytes, e.encode other = .ok otherBytes →
        (otherBytes = bytes ↔ e.Shows other c) := by
  obtain ⟨c, hc, rfl⟩ := shows_of_encode h
  refine ⟨c, hc, Rlp.decode?_eq_some_iff hsize, fun other otherBytes hother => ?_⟩
  obtain ⟨d, hd, rfl⟩ := shows_of_encode hother
  constructor
  · intro hbytes
    have hitem := Rlp.encode_inj hsize hbytes.symm
    rw [ReceiptContent.item_injective hitem]
    exact hd
  · intro hshows
    rw [hshows.unique hd]

/-- A receipt with blanks, an underscore and capitals in its texts, and one log. -/
def sample : Receipt where
  root := "0x01"
  gasUsed := " 3_00 "
  contractAddress := ""
  logsBloom := "0x00"
  status := 0
  output := "0xFF80"
  remainGas := some "1a"
  logs := [{ address := "0x02", topics := ["0x03", ""], data := " 0x0405" }]

def sampleBytes : Bytes :=
  [0xd4, 0x01, 0x82, 0x01, 0x2c, 0x80, 0x00, 0x80, 0x82, 0xff, 0x80, 0x1a, 0xc8, 0xc7, 0x02, 0xc2,
   0x03, 0x80, 0x82, 0x04, 0x05]

/-- The sample, encoded with the gas that remains. -/
theorem encode_faithful_sample :
    encode ⟨true⟩ sample = .ok sampleBytes ∧ sampleBytes.length < UInt64.size ∧
    ∃ c, Shows ⟨true⟩ sample c ∧
      (∀ input, Rlp.Item.decode? input = some c.item ↔ input = sampleBytes) ∧
      ∀ other otherBytes, encode ⟨true⟩ other = .ok otherBytes →
        (otherBytes = sampleBytes ↔ Shows ⟨true⟩ other c) := by
  have hencode : encode ⟨true⟩ sample = .ok sampleBytes := by decide +kernel
  have hsize : sampleBytes.length < UInt64.size := by decide
  exact ⟨hencode, hsize, encode_faithful hencode hsize⟩

end ReceiptEncoding

end LedgerGateway
