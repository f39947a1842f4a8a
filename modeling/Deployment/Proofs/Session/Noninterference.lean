import Deployment.Proofs.Session.Resumption

/-! # Uploads that keep to themselves

Requests of one account may come between each other at any point. None of them changes an upload
that it does not work on; and as long as uploads are thrown away with care, it also leaves the
place in the table, the archive and the record of every other upload alone.

* **`Act.spares_of_isBeginning`** — an operation that begins leaves everything alone.
* **`Orderly.spares`** — what an operation leaves alone when it goes on.
* **`Orderly.find_of_isGranted`** — what is accepted is accepted for an upload in progress.
* **`keeps_to_its_upload`** — all of it, after every run. -/

namespace Deployment

open Stateful FileTree SessionManager

/-! ## What is left alone -/

/-- With the act an operation begins: a caller asks for something, or the end of a job is heard
of. -/
def Act.isBeginning : Act → Bool
  | .ask _ _ | .notice _ _ => true
  | _ => false

/-- An operation that begins leaves the table and all uploads and files alone; at most it enters a
new upload. -/
theorem Act.spares_of_isBeginning {act : Act} (h : act.isBeginning = true) (t : Traffic) :
    (∀ a n, t.manager.find? a = some n → (act.step t).manager.find? a = some n) ∧
      (∀ (n : Nat) (u : Upload), t.manager.uploads[n]? = some u →
        (act.step t).manager.uploads[n]? = some u) ∧
      (act.step t).manager.plant.files = t.manager.plant.files := by
  -- Most beginnings only note an operation, which leaves the manager as it is.
  have hsame : ∀ {t' : Traffic}, t'.manager = t.manager →
      (∀ a n, t.manager.find? a = some n → t'.manager.find? a = some n) ∧
        (∀ (n : Nat) (u : Upload), t.manager.uploads[n]? = some u →
          t'.manager.uploads[n]? = some u) ∧
        t'.manager.plant.files = t.manager.plant.files := by
    intro t' hm
    rw [hm]
    exact ⟨fun _ _ h => h, fun _ _ h => h, rfl⟩
  cases act with
  | resume c => cases h
  | elsewhere e => cases h
  | notice k now =>
    simp only [Act.step]
    split
    · exact hsame rfl
    · split
      · simp only [Traffic.beginNote]
        split
        · exact hsame (Traffic.manager_goOn ..)
        · exact ⟨fun _ _ h => h, fun _ _ h => h, rfl⟩
      · exact hsame rfl
  | ask i op =>
    simp only [Act.step]
    split
    · exact hsame rfl
    · cases op with
      | register a info requester id now =>
        rcases enter_cases t.manager a info requester id now with ⟨f, -, he⟩ |
          ⟨-, -, -, hidle, he⟩
        · refine hsame ?_
          simp only [Traffic.beginOperation, he]
        · simp only [Traffic.beginOperation, he, Traffic.manager_goOn]
          -- A session is opened only where the account has none.
          refine ⟨fun b n hb => ?_, fun n u hu => known_begin hu _, rfl⟩
          rw [Linked.find?_begin, if_neg, hb]
          rintro rfl
          cases hidle.symm.trans hb
      | append a bytes =>
        simp only [Traffic.beginOperation]
        split
        · exact hsame (Traffic.manager_goOn ..)
        · exact hsame rfl
      | finalize a now =>
        simp only [Traffic.beginOperation]
        split
        · exact hsame (Traffic.manager_goOn ..)
        · exact hsame rfl

/-- A client that goes on changes no upload but the one that it works on. -/
theorem Act.resume_uploads {t : Traffic} {c : Client} {f : Flight} (hf : t.flight? c = some f)
    {k : Nat} (hk : k ≠ f.upload) :
    ((Act.resume c).step t).manager.uploads[k]? = t.manager.uploads[k]? := by
  cases hlocked : t.isLocked f with
  | true => simp only [Act.step, hf, hlocked, if_true]
  | false =>
    rw [Act.step_resume hf hlocked, Traffic.manager_goOn]
    exact f.proceed_uploads t.manager hk

namespace Traffic.Orderly

variable {s : Settings} {t : Traffic} {c : Client} {f : Flight}

/-- What a client leaves alone when it goes on with care. -/
theorem spares (ho : Orderly s t) (hn : Path.isPlainName s.sessionFile = true)
    (hf : t.flight? c = some f) (hcare : (Act.resume c).Careful t) :
    let t' := (Act.resume c).step t
    (∀ a n, n ≠ f.upload → t.manager.find? a = some n → t'.manager.find? a = some n) ∧
    (∀ a bytes, a.isValid = true → t.manager.plant.files.read (s.recordFile a) = .ok bytes →
      ¬ (a = f.account ∧ t.manager.find? a = some f.upload ∧ t'.manager.HasEnded a f.upload) →
      t'.manager.plant.files.read (s.recordFile a) = .ok bytes) ∧
    ∀ (n : Nat) (u v : Upload) (bytes : List UInt8), n ≠ f.upload →
      t.manager.uploads[f.upload]? = some u → t.manager.uploads[n]? = some v →
      t.manager.find? v.account = some n ∨ u.archive ≠ v.archive →
      t.manager.plant.files.read v.archive = .ok bytes →
      t'.manager.plant.files.read v.archive = .ok bytes := by
  intro t'
  cases hlocked : t.isLocked f with
  | true =>
    have ht : t' = t := by simp only [t', Act.step, hf, hlocked, if_true]
    rw [ht]
    exact ⟨fun _ _ _ h => h, fun _ _ _ h _ => h, fun _ _ _ _ _ _ _ _ h => h⟩
  | false =>
    obtain ⟨u, hr⟩ := ho.resumes hf hcare
    have hm : t'.manager = (f.proceed t.manager).1 := by
      show ((Act.resume c).step t).manager = _
      rw [Act.step_resume hf hlocked, manager_goOn]
    rw [hm]
    generalize (f.proceed t.manager).1 = m', (f.proceed t.manager).2 = next at hr ⊢
    have hfiles := hr.files hn
    -- the table, the records and the archives, each from what the operation touches
    refine ⟨fun a n hne hfind => ?_, fun a bytes hv hread hend => ?_,
      fun n u' v bytes hne hu' hv happart hread => ?_⟩
    · rcases hr.table with hsame | ⟨hunlink, hlive, -⟩
      · rw [hsame, hfind]
      · rw [hunlink, Linked.find?_unlink, if_neg, hfind]
        rintro rfl
        rcases hlive with hlive | hlive
        · cases hlive.symm.trans hfind
        · exact hne (Option.some.inj (hfind.symm.trans hlive))
    · refine hfiles.read hn ?_ hread
      have hplace : s.Recorded a (Path.place (s.recordFile a)) := .inr (s.place_join hv hn)
      rintro (⟨harch, -⟩ | ⟨hrec, hfind, hended⟩)
      · -- no archive lies where a record does
        exact (ho.sited.placed _ u hr.known).not_recorded a (harch ▸ hplace)
      · have ha : a = f.account := Settings.belongs_unique hplace.belongs hrec.belongs
        subst ha
        exact hend ⟨rfl, hfind, hended⟩
    · obtain rfl : u = u' := Option.some.inj (hr.known.symm.trans hu')
      obtain ⟨name, hname, -, harch⟩ := (ho.sited.placed n v hv).archive
      have hnot := hr.not_touched hne hv happart
      rw [harch] at hnot hread ⊢
      exact hfiles.read hname hnot hread

/-- What is granted is granted to an upload in progress. -/
theorem find_of_isGranted (ho : Orderly s t) (hf : t.flight? c = some f)
    (hg : f.isGranted t.manager = true) : t.manager.find? f.account = some f.upload := by
  obtain ⟨u, hu, -⟩ := ho.known hf
  have hopen := f.open_of_isGranted hu hg
  have hdel : f.isDeleting = false := by
    cases f with
    | deleting a n => cases hg
    | _ => rfl
  refine (ho.current hf hu hdel ?_).find
  rw [Bool.eq_false_iff]
  exact fun ht => hopen (Upload.shut_of_terminal ht)

end Traffic.Orderly

/-- Operations do not interfere with uploads that they do not work on, whatever comes between what:
an operation that begins leaves everything alone, and one that goes on changes no other upload. If
uploads were thrown away with care, it also takes no other upload out of the table, replaces the
record of its account only when its own upload ends, and leaves all archives alone but its own; and
whatever is accepted is accepted for an upload in progress. -/
theorem keeps_to_its_upload (s : Settings) (hs : s.validate = .ok ()) (files : FileTree)
    (md : Metadata) (acts : List Act) :
    let t := (Traffic.start s files md).after acts
    (∀ act : Act, act.isBeginning = true →
      (∀ a n, t.manager.find? a = some n → (act.step t).manager.find? a = some n) ∧
      (∀ (n : Nat) (u : Upload), t.manager.uploads[n]? = some u →
        (act.step t).manager.uploads[n]? = some u) ∧
      (act.step t).manager.plant.files = t.manager.plant.files) ∧
    ∀ c f, t.flight? c = some f →
      let t' := (Act.resume c).step t
      (∀ n, n ≠ f.upload → t'.manager.uploads[n]? = t.manager.uploads[n]?) ∧
      ((Traffic.start s files md).Careful (acts ++ [.resume c]) →
        (∀ a n, n ≠ f.upload → t.manager.find? a = some n → t'.manager.find? a = some n) ∧
        (∀ a bytes, a.isValid = true →
          t.manager.plant.files.read (s.recordFile a) = .ok bytes →
          ¬ (a = f.account ∧ t.manager.find? a = some f.upload ∧
            t'.manager.HasEnded a f.upload) →
          t'.manager.plant.files.read (s.recordFile a) = .ok bytes) ∧
        (∀ (n : Nat) (u v : Upload) (bytes : List UInt8), n ≠ f.upload →
          t.manager.uploads[f.upload]? = some u → t.manager.uploads[n]? = some v →
          t.manager.find? v.account = some n ∨ u.archive ≠ v.archive →
          t.manager.plant.files.read v.archive = .ok bytes →
          t'.manager.plant.files.read v.archive = .ok bytes) ∧
        (f.isGranted t.manager = true → t.manager.find? f.account = some f.upload)) := by
  intro t
  have hn := Settings.isPlainName_of_validate hs
  refine ⟨fun act hact => Act.spares_of_isBeginning hact t, fun c f hf => ⟨fun n hne => ?_,
    fun hcare => ?_⟩⟩
  · exact Act.resume_uploads hf hne
  · obtain ⟨hbefore, hnow, -⟩ := Traffic.careful_append.1 hcare
    have ho : t.Orderly s := (Traffic.Orderly.start s files md).after hn hbefore
    obtain ⟨htable, hrecords, harchives⟩ := ho.spares hn hf hnow
    exact ⟨htable, hrecords, harchives, ho.find_of_isGranted hf⟩

namespace Sample

/-- A caller asks for something and goes on with it at once. -/
def through (i : Nat) (op : Operation) : List Act := [.ask i op, .resume (.caller i)]

/-- A caller asks for an upload of an account. -/
def begun (a : Account) (id : Nat) : Operation :=
  .register a { account := a, fileName := "app.json" } "alice" ⟨id⟩ now

/-- What there is after some acts. -/
def traffic (acts : List Act) : Traffic := (Traffic.start settings .empty .empty).after acts

/-- Another account that uploads. -/
def neighbour : Account := ⟨"beta"⟩

/-- Two callers have found one upload; one of them sends an empty part, so that it is thrown away,
and the account begins another. -/
def overtaken (part : List UInt8) : List Act :=
  through 0 (begun account 0) ++ [.ask 0 (.append account part), .ask 1 (.append account []),
    .resume (.caller 1), .resume (.caller 1)] ++ through 2 (begun account 1)

/-- The account sends an archive and ends its upload. -/
def sent (i : Nat) : List Act :=
  through i (.append account descriptor) ++ through i (.finalize account now)

/-- What is thrown away is still to be deleted when the account has sent another archive. -/
def late : List Act :=
  through 0 (begun account 0) ++ [.ask 0 (.append account []), .resume (.caller 0)] ++
    through 1 (begun account 1) ++ sent 1

/-- A caller has found an upload and is about to send an empty part to it. The upload ends, and the
account begins another and sends its first part. -/
def stale : List Act :=
  .elsewhere .close :: through 1 (begun account 0) ++ [.ask 0 (.append account [])] ++ sent 1 ++
    through 1 (begun account 1) ++ through 1 (.append account descriptor)

/-- An upload has ended, and the account has begun another. -/
def again : List Act :=
  .elsewhere .close :: through 1 (begun account 0) ++ sent 1 ++ through 0 (begun account 1)

/-- The archive and the record of the account. -/
def left (t : Traffic) : Option (List UInt8) × Option (List UInt8) :=
  ((t.manager.plant.files.read job.archive).toOption,
    (t.manager.plant.files.read (settings.recordFile account)).toOption)

end Sample

open Sample in
/-- The empty part of a caller whose upload has ended is sent beside the next upload of the same
account. It leaves that upload its place in the table and its archive, and the account the record
of the upload that ended. -/
theorem stale_part_spares_successor :
    let t := traffic stale
    let t' := (Act.resume (.caller 0)).step t
    (Traffic.start settings .empty .empty).Careful (stale ++ [.resume (.caller 0)]) ∧
      t.flight? (.caller 0) = some (.appending account 0 []) ∧
      t.manager.uploads[0]?.map (·.status) = some .failed ∧
      t'.manager.find? account = some 1 ∧ t'.manager.plant.files.read job.archive = .ok [] ∧
      ∃ bytes, t.manager.plant.files.read (settings.recordFile account) = .ok bytes ∧
        t'.manager.plant.files.read (settings.recordFile account) = .ok bytes := by
  intro t t'
  have hcare : (Traffic.start settings .empty .empty).Careful
      (stale ++ [.resume (.caller 0)]) := by decide +kernel
  have hf : t.flight? (.caller 0) = some (.appending account 0 []) := by decide +kernel
  have hlive : t.manager.find? account = some 1 := by decide +kernel
  have hended : t.manager.uploads[0]?.map (·.status) = some .failed := by decide +kernel
  have hnext : t.manager.uploads[1]?.map (fun v => (v.account, v.archive)) =
      some (account, job.archive) := by decide +kernel
  have hsent : t.manager.plant.files.read job.archive = .ok [] := by decide +kernel
  have hrecord : t.manager.plant.files.read (settings.recordFile account) =
      .ok ((left t).2.getD []) := by decide +kernel
  obtain ⟨u, hu, -⟩ := Option.map_eq_some_iff.1 hended
  obtain ⟨v, hv, hplace⟩ := Option.map_eq_some_iff.1 hnext
  obtain ⟨hacc, harch⟩ := Prod.mk.inj hplace
  obtain ⟨htable, hrecords, harchives, -⟩ :=
    ((keeps_to_its_upload settings rfl .empty .empty stale).2 _ _ hf).2 hcare
  refine ⟨hcare, hf, hended, htable account 1 (by decide) hlive, ?_, _, hrecord,
    hrecords account _ (by decide) hrecord ?_⟩
  · rw [← harch] at hsent ⊢
    exact harchives 1 u v [] (by decide) hu hv (.inl (hacc ▸ hlive)) hsent
  · -- the upload in progress is not the one that the part is for
    rintro ⟨-, hfind, -⟩
    cases hlive.symm.trans hfind

open Sample in
/-- Operations interfere where uploads are thrown away without care: one throws away the upload
that another began; one is granted although its own upload is gone, and empties the archive of the
other; one deletes the archive that was sent since. With all care, too, an upload takes the place of
the archive and of the record of one that has ended. -/
theorem overtaken_interferes :
    let stray := traffic (overtaken [])
    let gone := traffic (overtaken descriptor ++ sent 2)
    let behind := traffic late
    let second := traffic (again ++ [.ask 0 (.append account descriptor)])
    let replaced := traffic (again ++ [.ask 0 (.finalize account now)])
    (stray.flight? (.caller 0)).map (·.upload) = some 0 ∧ stray.manager.find? account = some 1 ∧
      ((Act.resume (.caller 0)).step stray).manager.find? account = none ∧
    (gone.flight? (.caller 0)).map (·.upload) = some 0 ∧ gone.manager.find? account = some 1 ∧
      (gone.flight? (.caller 0)).map (·.isGranted gone.manager) = some true ∧
      (left gone).1 = some descriptor ∧
      (left ((Act.resume (.caller 0)).step gone)).1 = some [] ∧
    (behind.flight? (.caller 0)).map (·.upload) = some 0 ∧
      behind.manager.find? account = some 1 ∧ (left behind).1 = some descriptor ∧
      (left ((Act.resume (.caller 0)).step behind)).1 = none ∧
    (second.flight? (.caller 0)).map (·.upload) = some 1 ∧ (left second).1 = some descriptor ∧
      (left ((Act.resume (.caller 0)).step second)).1 = some [] ∧
    (replaced.flight? (.caller 0)).map (·.upload) = some 1 ∧
      (left ((Act.resume (.caller 0)).step replaced)).2 ≠
        (left replaced).2 := by
  decide +kernel

end Deployment
