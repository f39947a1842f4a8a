import Deployment.Proofs.Json.Form
import Deployment.Proofs.Time.Reading
import Deployment.Record

/-! # Records are read back

* **`Ulid.ofText_text`** — an identifier is read back from its digits.
* **`SessionRecord.Sound`** — the records that the program writes.
* **`SessionRecord.parse_pretty`** — a sound record is read back from its text. -/

namespace Deployment

/-! ## Identifiers -/

namespace Ulid

/-- There are as many digits as are asked for, each below the base. -/
theorem digits_spec (k n : Nat) : (digits k n).length = k ∧ ∀ d ∈ digits k n, d < 32 := by
  induction k generalizing n with
  | zero => exact ⟨rfl, nofun⟩
  | succ k ih =>
    obtain ⟨hlen, hdigits⟩ := ih (n / 32)
    refine ⟨by rw [digits, List.length_append, hlen]; rfl, fun d hd => ?_⟩
    rcases List.mem_append.1 hd with hd | hd
    · exact hdigits d hd
    · obtain rfl := List.mem_singleton.1 hd
      exact Nat.mod_lt n (by decide)

/-- Every digit has a letter of its own. -/
theorem digit?_letter {d : Nat} (h : d < 32) :
    digit? (alphabet.getD d '0') = some d ∧ (alphabet.getD d '0').toNat < 128 := by
  have hall : ∀ d : Fin 32, digit? (alphabet.getD d '0') = some d.val ∧
      (alphabet.getD d '0').toNat < 128 := by decide
  exact hall ⟨d, h⟩

/-- Digits are read back from their characters. -/
theorem mapM_digit? {ds : List Nat} (h : ∀ d ∈ ds, d < 32) :
    (ds.map fun d => alphabet.getD d '0').mapM digit? = some ds := by
  induction ds with
  | nil => rfl
  | cons d ds ih =>
    rw [List.map_cons, List.mapM_cons, (digit?_letter (h d (List.mem_cons_self ..))).1,
      ih fun e he => h e (List.mem_cons_of_mem d he)]
    rfl

/-- The digits of an identifier are as many bytes. -/
theorem utf8ByteSize_letters {ds : List Nat} (h : ∀ d ∈ ds, d < 32) :
    (String.ofList (ds.map fun d => alphabet.getD d '0')).utf8ByteSize = ds.length := by
  have hsize : ∀ s : String, s.utf8ByteSize = (Utf8.encode s).length := fun s => by
    simp [Utf8.encode]
  rw [hsize, Utf8.encode_ofList]
  induction ds with
  | nil => rfl
  | cons d ds ih =>
    rw [List.map_cons, List.flatMap_cons,
      Utf8.encodeChar_ascii (digit?_letter (h d (List.mem_cons_self ..))).2, List.length_append,
      ih fun e he => h e (List.mem_cons_of_mem d he), List.length_cons]
    exact Nat.add_comm 1 _

/-- An identifier is read back from its digits. -/
@[simp] theorem ofText_text (u : Ulid) : ofText u.text = .ok u := by
  obtain ⟨hlen, hdigits⟩ := digits_spec width u.value.toNat
  have hfit : u.value.toNat < Nat.pow 32 width := by
    refine Nat.lt_of_lt_of_le u.value.isLt ?_
    decide
  have hsize : u.text.utf8ByteSize = width := by rw [text, utf8ByteSize_letters hdigits, hlen]
  have hvalue : BitVec.ofNat 128 (ofDigits (digits width u.value.toNat)) = u.value := by
    rw [ofDigits_digits, Nat.mod_eq_of_lt hfit, BitVec.ofNat_toNat, BitVec.setWidth_eq]
  rw [ofText, if_neg (by rw [hsize]; exact fun h => h rfl), text, String.toList_ofList,
    mapM_digit? hdigits]
  simp only [hvalue]

/-- An identifier is restored from its text. -/
theorem restores_form (u : Ulid) : form.Restores 0 u := by
  intro levels _ blanks bytes rest hb hs he
  refine .bind (Json.Reader.finds_text u.text blanks bytes rest hb hs he) ?_
  simp only [ofText_text]
  exact .pure u rest

end Ulid

/-! ## The parts of a record -/

open Json (Form Field)

/-- An account is restored from its name. -/
theorem Account.restores_form (a : Account) : form.Restores 0 a :=
  (Form.restores_text a.name).imap rfl

/-- A path is restored. -/
theorem Path.restores_form (p : String) : form.Restores 0 p := Form.restores_judged rfl

/-- A status is restored from its name. -/
theorem Status.restores_form (s : Status) : form.Restores 0 s := by
  refine Form.restores_choice ?_ ?_
  · cases s <;> decide
  · cases s <;> decide

/-- A moment that can be written is restored. -/
theorem Timestamp.restores_form {t : Timestamp} (h : t.Sound) : form.Restores 0 t :=
  Form.restores_judged (by rw [ofText_text h]; rfl)

/-- An identity is restored if its version fits into 32 bits. -/
theorem ResourceId.restores_form {r : ResourceId} (h : r.version ≤ Nat.pow 2 32 - 1) :
    form.Restores 1 r :=
  Form.restores_record (fun _ _ =>
    .cons (Field.restores_of (Account.restores_form r.account) (Nat.zero_le _))
      (.cons (Field.restores_of (Form.restores_text r.application) (Nat.zero_le _))
        (.cons (Field.restores_of (Ulid.restores_form r.upload) (Nat.zero_le _))
          (.cons (Field.restores_of (Form.restores_natural (by decide) h) (Nat.zero_le _))
            .nil)))) (by decide) rfl

/-! ## Records -/

namespace SessionRecord

/-- The version fits into 32 bits and the times can be told. -/
structure Sound (r : SessionRecord) : Prop where
  version_le : r.resource.version ≤ Nat.pow 2 32 - 1
  createdAt : r.createdAt.Sound
  updatedAt : r.updatedAt.Sound

/-- A sound record is restored, with the identity of its upload one level further in. -/
theorem restores_form {r : SessionRecord} (h : r.Sound) : form.Restores 2 r := by
  refine Form.restores_record (fun _ hlevels =>
    .cons (Field.restores_of (ResourceId.restores_form h.version_le) hlevels)
      (.cons (Field.restores_of (Account.restores_form r.account) (Nat.zero_le _))
        (.cons (Field.restores_of (Path.restores_form r.archive) (Nat.zero_le _))
          (.cons (Field.restores_of (Status.restores_form r.status) (Nat.zero_le _))
            (.cons (Field.restores_optional (fun s _ => ⟨Form.restores_text s, nofun⟩)
                (Nat.zero_le _))
              (.cons (Field.restores_of (Timestamp.restores_form h.createdAt) (Nat.zero_le _))
                (.cons (Field.restores_of (Timestamp.restores_form h.updatedAt) (Nat.zero_le _))
                  .nil))))))) (by decide) ?_
  obtain ⟨resource, account, archive, status, error, createdAt, updatedAt⟩ := r
  cases error <;> rfl

/-- A sound record is read back from its text. -/
theorem parse_pretty {r : SessionRecord} (h : r.Sound) :
    form.parse (Utf8.encode (form.pretty r)) = .ok r :=
  Form.parse_pretty (restores_form h) (by decide)

end SessionRecord

end Deployment
