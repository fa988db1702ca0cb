import LedgerGateway.Proofs.Bytes.Spelling
import LedgerGateway.Proofs.Proof.Content
import LedgerGateway.Proofs.Proof.Membership
import Mathlib.Tactic.MkIffOfInductiveProp

/-!
# Receipts that are spelled differently

What a receipt shows does not depend on how its digits are spelled, and neither does its encoding, with
one exception: blanks in front of the gas that remains keep a receipt from being encoded
(`ReceiptEncoding.encode_respelled`).
-/

namespace LedgerGateway

open Text

/-! ## Fields -/

/-- The bytes of a field do not depend on its spelling. -/
theorem HexField.decode_respelled {field a b : String} {bytes : Bytes} (h : Respelled a b) :
    decode field a = .ok bytes ↔ decode field b = .ok bytes := by
  rw [decode_eq_ok, decode_eq_ok]
  rcases h with rfl | ⟨s, t, rfl, rfl, hdigits⟩
  · rfl
  · rw [s.trim_text, t.trim_text, s.stripLowerMark_core, t.stripLowerMark_core,
      Spelling.decode_digits hdigits]

theorem Spelling.isMarked_core (s : Spelling) :
    ReceiptEncoding.isMarked (String.ofList s.core) = s.isMarked := by
  rw [ReceiptEncoding.isMarked, String.toList_ofList, core]
  cases s.isMarked with
  | false => exact s.isPrefixOf_digits
  | true => rfl

/-- The mark of the gas that was used decides its radix. -/
theorem gasUsed?_respelled {a b : String} (h : RespelledAlike a b) : gasUsed? a = gasUsed? b := by
  rcases h with rfl | ⟨s, t, rfl, rfl, hdigits, hmark⟩
  · rfl
  · rw [gasUsed?, gasUsed?, s.trim_text, t.trim_text, s.isMarked_core, t.isMarked_core, hmark,
      s.stripMarks_core, t.stripMarks_core, Spelling.numeral?_digits hdigits 16]
    cases ht : t.isMarked with
    | true => rfl
    | false =>
      rw [ht] at hmark
      simp only [Spelling.core, hmark, ht, Bool.false_eq_true, if_false,
        Spelling.numeral?_digits hdigits 10]

theorem remainGas?_respelled {a b : Option String} (h : Option.Rel Respelled a b) :
    remainGas? a = remainGas? b := by
  cases h with
  | none => rfl
  | some h =>
    rcases h with rfl | ⟨s, t, rfl, rfl, hdigits⟩
    · rfl
    · rw [remainGas?, remainGas?, s.trim_text, t.trim_text, s.stripMarks_core, t.stripMarks_core,
        Spelling.numeral?_digits hdigits 16]

/-! ## Receipts -/

/-- The texts of two logs are spellings of each other. -/
structure Log.Respelled (a b : Log) : Prop where
  address : LedgerGateway.Respelled a.address b.address
  topics : List.Forall₂ LedgerGateway.Respelled a.topics b.topics
  data : LedgerGateway.Respelled a.data b.data

/-- Two receipts differ only in how their encoded texts are spelled. -/
structure Receipt.Respelled (r r' : Receipt) : Prop where
  root : LedgerGateway.Respelled r.root r'.root
  gasUsed : RespelledAlike r.gasUsed r'.gasUsed
  remainGas : Option.Rel LedgerGateway.Respelled r.remainGas r'.remainGas
  contractAddress : LedgerGateway.Respelled r.contractAddress r'.contractAddress
  logsBloom : LedgerGateway.Respelled r.logsBloom r'.logsBloom
  output : LedgerGateway.Respelled r.output r'.output
  logs : List.Forall₂ Log.Respelled r.logs r'.logs
  others : r' = { r with
    root := r'.root, gasUsed := r'.gasUsed, remainGas := r'.remainGas,
    contractAddress := r'.contractAddress, logsBloom := r'.logsBloom, output := r'.output,
    logs := r'.logs }

/-- Lists of related elements stand in the same relation to a third one if the elements do. -/
theorem forall₂_congr {α γ : Type} {R : α → α → Prop} {S : α → γ → Prop} {as bs : List α}
    {cs : List γ} (hrel : List.Forall₂ R as bs) (h : ∀ a b c, R a b → (S a c ↔ S b c)) :
    List.Forall₂ S as cs ↔ List.Forall₂ S bs cs := by
  induction hrel generalizing cs with
  | nil => rfl
  | cons hab _ ih => simp only [List.forall₂_cons_left_iff, h _ _ _ hab, ih]

attribute [mk_iff] Log.Shows ReceiptEncoding.Shows

theorem Log.shows_respelled {a b : Log} (h : a.Respelled b) (l : LogContent) :
    a.Shows l ↔ b.Shows l := by
  have htopics : List.Forall₂ (fun text bytes => HexField.decode "log topic" text = .ok bytes)
        a.topics l.topics ↔
      List.Forall₂ (fun text bytes => HexField.decode "log topic" text = .ok bytes)
        b.topics l.topics :=
    forall₂_congr h.topics fun _ _ _ => HexField.decode_respelled
  rw [Log.shows_iff, Log.shows_iff, HexField.decode_respelled h.address, htopics,
    HexField.decode_respelled h.data]

namespace ReceiptEncoding

/-- What a receipt shows does not depend on the spelling. -/
theorem shows_respelled {e : ReceiptEncoding} {r r' : Receipt} (h : r.Respelled r')
    (c : ReceiptContent) : e.Shows r c ↔ e.Shows r' c := by
  have hstatus : r'.status = r.status := by rw [h.others]
  have hlogs : List.Forall₂ Log.Shows r.logs c.logs ↔ List.Forall₂ Log.Shows r'.logs c.logs :=
    forall₂_congr h.logs fun _ _ l hlog => Log.shows_respelled hlog l
  rw [shows_iff, shows_iff, HexField.decode_respelled h.root, gasUsed?_respelled h.gasUsed,
    HexField.decode_respelled h.contractAddress, HexField.decode_respelled h.logsBloom, hstatus,
    HexField.decode_respelled h.output, remainGas?_respelled h.remainGas, hlogs]

/-- Receipts that differ only in spelling have one encoding or none, unless blanks in front of the gas
that remains keep one of them from being encoded. -/
theorem encode_respelled {e : ReceiptEncoding} {r r' : Receipt} (h : r.Respelled r') :
    (e.misreads r = e.misreads r' → ∀ bytes, e.encode r = .ok bytes ↔ e.encode r' = .ok bytes) ∧
      (e.misreads r = true → ∀ bytes, e.encode r ≠ .ok bytes) := by
  constructor
  · intro hmisreads bytes
    simp only [encode_eq_ok_iff, hmisreads, shows_respelled h]
  · intro hmisreads bytes hencode
    rw [encode_eq_ok_iff, hmisreads] at hencode
    cases hencode.1

/-- A mark that is missing, blanks at both ends and a capital. -/
theorem encode_respelled_sample :
    let r : Receipt := {
      root := "0x0a", gasUsed := "0x1f", remainGas := some "1f"
      logs := [{ address := "02", topics := ["0x0b"], data := "ff80" }] }
    let r' : Receipt := {
      root := "0A", gasUsed := " 0x1F", remainGas := some "0x1f\n"
      logs := [{ address := "02", topics := [" 0x0b "], data := "0xFf80" }] }
    r.Respelled r' ∧ misreads ⟨true⟩ r = misreads ⟨true⟩ r' ∧
      ∀ bytes, encode ⟨true⟩ r = .ok bytes ↔ encode ⟨true⟩ r' = .ok bytes := by
  intro r r'
  have htopic : Respelled "0x0b" " 0x0b " :=
    .inr ⟨{ isMarked := true, digits := ['0', 'b'] },
      { before := [' '], isMarked := true, digits := ['0', 'b'], after := [' '] }, rfl, rfl, rfl⟩
  have hdata : Respelled "ff80" "0xFf80" :=
    .inr ⟨{ digits := ['f', 'f', '8', '0'] },
      { isMarked := true, digits := ['F', 'f', '8', '0'] }, rfl, rfl, rfl⟩
  have hrespelled : r.Respelled r' := {
    root := .inr ⟨{ isMarked := true, digits := ['0', 'a'] }, { digits := ['0', 'A'] }, rfl, rfl, rfl⟩
    gasUsed := .inr ⟨{ isMarked := true, digits := ['1', 'f'] },
      { before := [' '], isMarked := true, digits := ['1', 'F'] }, rfl, rfl, rfl, rfl⟩
    remainGas := .some <| .inr ⟨{ digits := ['1', 'f'] },
      { isMarked := true, digits := ['1', 'f'], after := ['\n'] }, rfl, rfl, rfl⟩
    contractAddress := .inl rfl
    logsBloom := .inl rfl
    output := .inl rfl
    logs := .cons ⟨.inl rfl, .cons htopic .nil, hdata⟩ .nil
    others := rfl }
  have hmisreads : misreads ⟨true⟩ r = misreads ⟨true⟩ r' := by decide +kernel
  exact ⟨hrespelled, hmisreads, (encode_respelled hrespelled).1 hmisreads⟩

/-- One blank in front of the gas that remains. -/
theorem encode_indented :
    let r : Receipt := { gasUsed := "1", remainGas := some "0x1" }
    let r' : Receipt := { gasUsed := "1", remainGas := some " 0x1" }
    r.Respelled r' ∧ encode ⟨true⟩ r = .ok [0xc8, 0x80, 0x01, 0x80, 0x80, 0x80, 0x80, 0x01, 0xc0] ∧
      encode ⟨true⟩ r' = .error (.invalidField "remainGas" "'0x 0x1': invalid digit: x") := by
  intro r r'
  have hremain : Respelled "0x1" " 0x1" :=
    .inr ⟨{ isMarked := true, digits := ['1'] },
      { before := [' '], isMarked := true, digits := ['1'] }, rfl, rfl, rfl⟩
  have hrespelled : r.Respelled r' := {
    root := .inl rfl
    gasUsed := .inl rfl
    remainGas := .some hremain
    contractAddress := .inl rfl
    logsBloom := .inl rfl
    output := .inl rfl
    logs := .nil
    others := rfl }
  exact ⟨hrespelled, by decide +kernel, by decide +kernel⟩

end ReceiptEncoding

end LedgerGateway
