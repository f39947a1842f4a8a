import Deployment.Proofs.Record.Form
import Deployment.Proofs.Record.Saving
import Deployment.Proofs.Time.Year

/-! # What was saved is loaded

A record is saved as a text, in which its points in time and the identifier of its upload are texts
again. Each of the three is read back as what was written.

* **`Ulid.length_text`**, **`Ulid.mem_alphabet`** — the digits of an identifier.
* **`SessionRecord.Plain`** — the records with times of the years 0 to 9999.
* **`RecordStore.load_of_read`** — the record in a file is loaded.
* **`records_read_back`** — records, points in time and identifiers are read back. -/

namespace Deployment

/-! ## Identifiers -/

namespace Ulid

/-- An identifier has 26 digits. -/
@[simp] theorem length_text (u : Ulid) : u.text.length = 26 := by
  rw [text, String.length_ofList, List.length_map]
  exact (digits_spec width u.value.toNat).1

/-- The digits of an identifier are those of the alphabet. -/
theorem mem_alphabet (u : Ulid) : ∀ c ∈ u.text.toList, c ∈ alphabet := by
  have hdigit : ∀ d : Fin 32, alphabet.getD d '0' ∈ alphabet := by decide
  intro c hc
  rw [text, String.toList_ofList] at hc
  obtain ⟨d, hd, rfl⟩ := List.mem_map.1 hc
  exact hdigit ⟨d, (digits_spec width u.value.toNat).2 d hd⟩

end Ulid

/-! ## Records -/

/-- The version fits into 32 bits, and the times lie in the years 0 to 9999, outside of leap
seconds. -/
structure SessionRecord.Plain (r : SessionRecord) : Prop where
  version_lt : r.resource.version < Nat.pow 2 32
  createdAt : r.createdAt.Plain
  updatedAt : r.updatedAt.Plain

/-- A plain record can be written and read. -/
theorem SessionRecord.Plain.sound {r : SessionRecord} (h : r.Plain) : r.Sound where
  version_le := Nat.le_sub_one_of_lt h.version_lt
  createdAt := h.createdAt.sound
  updatedAt := h.updatedAt.sound

namespace RecordStore

variable {s : RecordStore} {r : SessionRecord} {t t' : FileTree}

/-- The text of a record is not empty. -/
theorem bytes_ne_nil (r : SessionRecord) : bytes r ≠ [] := by
  obtain ⟨b, more, hb, -⟩ := Json.Reader.starts
    (Json.spells_pretty (SessionRecord.form.write r)) nofun
  intro hnil
  rw [bytes, Json.Form.pretty, hb] at hnil
  cases hnil

/-- The record in the file of an account is loaded. -/
theorem load_of_read {a : Account} (ha : a.isValid = true) (hup : s.loadDown = false)
    (hr : r.Sound) (h : t.read (s.file a) = .ok (bytes r)) : s.load t a = .ok (some r) := by
  have hpath : s.path a = .ok (s.file a) := if_pos ha
  simp only [load, hup, Bool.false_eq_true, if_false, hpath, Failing.ok_bind, h, bytes,
    SessionRecord.parse_pretty hr]
  rfl

end RecordStore

/-- Records, points in time and identifiers of uploads are read back from their texts. -/
theorem records_read_back (r : SessionRecord) (hr : r.Plain) :
    -- A record is read back from its text, which is what saving it leaves in its file.
    SessionRecord.form.parse (RecordStore.bytes r) = .ok r ∧
    (∀ (s : RecordStore) (t t' : FileTree), Path.isPlainName s.fileName = true →
      s.save r t = .ok () t' → t'.read (s.file r.account) = .ok (RecordStore.bytes r) ∧
        (s.loadDown = false → s.load t' r.account = .ok (some r))) ∧
    -- A point in time is read back, with as few digits of the fraction as hold all of it.
    (∀ t : Timestamp, t.Plain → Timestamp.ofText t.text = .ok t ∧
      ∃ k, Timestamp.FractionDigits t.nano k ∧
        t.text.length = 20 + if k = 0 then 0 else k + 1) ∧
    -- An identifier is read back from its 26 digits in base 32.
    ∀ u : Ulid, Ulid.ofText u.text = .ok u ∧ u.text.length = 26 ∧
      ∀ c ∈ u.text.toList, c ∈ Ulid.alphabet := by
  refine ⟨SessionRecord.parse_pretty hr.sound, fun s t t' hn hsave => ?_, fun t ht => ?_,
    fun u => ⟨u.ofText_text, u.length_text, u.mem_alphabet⟩⟩
  · obtain ⟨hvalid, -, -, hread⟩ := RecordStore.read_of_save hn (RecordStore.bytes_ne_nil r) hsave
    exact ⟨hread, fun hup => RecordStore.load_of_read hvalid hup hr.sound hread⟩
  · exact ⟨Timestamp.ofText_text ht.sound, ht.length_text⟩

/-- A failure without a reason, from the first nanosecond of year 0 to the last millisecond of year
9999, of an upload whose names hold quotes and blanks. -/
theorem reasonless_failure_read_back :
    let r : SessionRecord :=
      { resource := ⟨⟨"a\"b"⟩, "l\nine", ⟨-1⟩, 4294967295⟩, account := ⟨"a\"b"⟩
        archive := "root/ä\\b", status := .failed, error := some ""
        createdAt := ⟨-719528, 0, 1⟩, updatedAt := ⟨2932896, 86399, 999000000⟩ }
    r.Plain ∧ SessionRecord.form.parse (RecordStore.bytes r) = .ok r := by
  intro r
  have hr : r.Plain :=
    ⟨by decide, ⟨by decide, by decide, by decide, by decide⟩,
      ⟨by decide, by decide, by decide, by decide⟩⟩
  exact ⟨hr, (records_read_back r hr).1⟩

end Deployment
