import Deployment.Proofs.Session.Confinement
import Deployment.Proofs.Session.Noninterference

/-! # Accounts that share an installation

What is done for one account leaves every other account what it has, whatever requests come between
each other and whatever fails. No care is needed for that: a stray operation works on an upload of
its own account, and the file that a writer holds on to can turn up nowhere but at its archive.

* **`ServesOnly`** — what was done was done for one account.
* **`Tenanted`** — everything that is there belongs to the account that it is found by.
* **`Flight.Proceeds`** — a client goes on with its operation among accounts.
* **`Act.Serves`**, **`Traffic.Serving`** — acts for one account.
* **`Tenanted.step`**, **`Tenanted.after`** — every act keeps to the account that it is for, and so
  does every run.
* **`keeps_to_its_directory`** — what acts for an account can change, after every run. -/

namespace Deployment

open Stateful FileTree SessionManager

/-! ## Managers -/

namespace SessionManager

variable {s : Settings} {a b : Account} {n : Nat} {m m' m'' : SessionManager}

/-- What was done was done for one account: all others have the uploads that they had, and of the
files nothing but those of the account has changed. -/
structure ServesOnly (s : Settings) (a : Account) (m m' : SessionManager) : Prop where
  find : ∀ b, b ≠ a → m'.find? b = m.find? b
  uploads : ∀ (n : Nat) (u : Upload), u.account ≠ a →
    (m'.uploads[n]? = some u ↔ m.uploads[n]? = some u)
  files : Confined s a m.plant.files m'.plant.files

namespace ServesOnly

/-- Where nothing is done, nobody else is served. -/
theorem refl (s : Settings) (a : Account) (m : SessionManager) : ServesOnly s a m m :=
  ⟨fun _ _ => rfl, fun _ _ _ => Iff.rfl, .refl s a m.plant.files⟩

/-- What changes neither uploads nor files serves nobody. -/
theorem of_same (s : Settings) (a : Account) (hfind : m'.find? = m.find?)
    (hup : m'.uploads = m.uploads) (hfiles : m'.plant.files = m.plant.files) :
    ServesOnly s a m m' := by
  refine ⟨fun b _ => by rw [hfind], ?_, ?_⟩
  · rw [hup]
    exact fun _ _ _ => Iff.rfl
  · rw [hfiles]
    exact .refl s a _

/-- Who alone was served, and then again, was served alone. -/
theorem trans (h : ServesOnly s a m m') (h' : ServesOnly s a m' m'') : ServesOnly s a m m'' where
  find b hb := (h'.find b hb).trans (h.find b hb)
  uploads n u hu := (h'.uploads n u hu).trans (h.uploads n u hu)
  files := h.files.trans h'.files

end ServesOnly

/-- Everything that is there belongs to the account that it is found by: uploads to those that have
them in progress, and the files of writers to the archives of their uploads. -/
structure Tenanted (s : Settings) (m : SessionManager) : Prop where
  sited : Sited s m
  housed : ∀ (n : Nat) (u : Upload), m.uploads[n]? = some u → u.Housed m.plant.files
  live : ∀ a n, m.find? a = some n → m.HasUpload a n

namespace Tenanted

/-- At first no account has an upload. -/
theorem start (s : Settings) (files : FileTree) (md : Metadata) :
    (SessionManager.start s files md).Tenanted s where
  sited := .start s files md
  housed _ _ hu := nomatch hu
  live _ _ h := nomatch h

/-- What changes neither uploads nor files leaves to everybody what they have. -/
theorem of_same (hm : m.Tenanted s) (hset : m'.settings = m.settings)
    (hroot : m'.records.root = m.records.root) (hname : m'.records.fileName = m.records.fileName)
    (hfind : m'.find? = m.find?) (hup : m'.uploads = m.uploads)
    (hfiles : m'.plant.files = m.plant.files) : m'.Tenanted s := by
  refine ⟨⟨hset.trans hm.sited.settings, hroot.trans hm.sited.root,
    hname.trans hm.sited.fileName, ?_⟩, ?_, ?_⟩
  · rw [hup]
    exact hm.sited.placed
  · rw [hup, hfiles]
    exact hm.housed
  · rw [hfind]
    intro b n hn
    rw [HasUpload, hup]
    exact hm.live b n hn

/-- A registration enters an upload of its account. -/
theorem begin (hm : m.Tenanted s) {info : ResourceInfo} {requester : String} {id : Ulid}
    {now : Timestamp} (hvalid : a.isValid = true)
    (hplain : Path.isPlainName info.fileName = true)
    (hfree : m.settings.isReserved info.fileName = false) :
    let m' := SessionManager.begin a (m.newUpload a info requester id now) m
    m'.Tenanted s ∧ m.ServesOnly s a m' ∧ (∀ b n, m.HasUpload b n → m'.HasUpload b n) ∧
      m'.HasUpload a m.uploads.length := by
  intro m'
  have ⟨hset, hroot, hfile, hplaced⟩ := hm.sited
  have hfind : ∀ b, m'.find? b = if a = b then some m.uploads.length else m.find? b :=
    fun b => Linked.find?_begin m a b _
  have hkeeps : ∀ b n, m.HasUpload b n → m'.HasUpload b n :=
    fun b n ⟨u, hu, hown⟩ => ⟨u, known_begin hu _, hown⟩
  have hnew : m'.HasUpload a m.uploads.length := ⟨_, List.getElem?_concat_length, rfl⟩
  refine ⟨⟨⟨hset, hroot, hfile, forall_begin hplaced ?_⟩,
    forall_begin hm.housed (Upload.housed_of_none rfl _), fun b n hn => ?_⟩,
    ⟨fun b hb => ?_, fun n u hu => ⟨fun h => ?_, fun h => known_begin h _⟩, .refl s a _⟩,
    hkeeps, hnew⟩
  · exact ⟨hvalid, _, hplain, hset ▸ hfree, by rw [← hset]; rfl⟩
  · rw [hfind] at hn
    split at hn
    next hab =>
      subst hab
      rw [← Option.some.inj hn]
      exact hnew
    next => exact hkeeps b n (hm.live b n hn)
  · rw [hfind, if_neg (Ne.symm hb)]
  · -- the upload that is new is of the account
    rcases Nat.lt_trichotomy n m.uploads.length with hn | rfl | hn
    · exact (List.getElem?_append_left hn).symm.trans h
    · have hlast := List.getElem?_concat_length.symm.trans h
      exact absurd (Option.some.inj hlast ▸ rfl) hu
    · have hnone : m'.uploads[n]? = none := by
        refine List.getElem?_eq_none ?_
        show (m.uploads ++ [_]).length ≤ n
        rw [List.length_append]
        exact hn
      cases hnone.symm.trans h

end Tenanted

end SessionManager

/-! ## Going on -/

/-- A client goes on with its operation among accounts. -/
structure Flight.Proceeds (s : Settings) (m : SessionManager) (f : Flight) (u : Upload)
    (m' : SessionManager) (next : Option Flight) : Prop where
  before : m.Tenanted s
  known : m.uploads[f.upload]? = some u
  own : u.account = f.account
  course : f.Course m u m' next
  others : ∀ k, k ≠ f.upload → m'.uploads[k]? = m.uploads[k]?

namespace Flight.Proceeds

variable {s : Settings} {m m' : SessionManager} {f : Flight} {u : Upload} {next : Option Flight}

/-- An operation that goes on works on an upload in its place. -/
theorem placed (hp : f.Proceeds s m u m' next) : u.Placed s :=
  hp.before.sited.placed _ u hp.known

/-- Its account has a valid name. -/
theorem valid (hp : f.Proceeds s m u m' next) : f.account.isValid = true :=
  hp.own ▸ hp.placed.valid

/-- No file is moved but one that was written for the record of the account. -/
theorem moves (hp : f.Proceeds s m u m' next) (hn : Path.isPlainName s.sessionFile = true) :
    MovesOnly (s.Recorded f.account) m.plant.files m'.plant.files := by
  refine hp.course.files (MovesOnly.refl _) .trans (Files.createDirectories_moves _ _ _)
    (Files.remove_moves _ _ _) (fun bytes => Upload.write_moves _ u bytes _)
    (Upload.close_moves _ u _) fun r t hr => ?_
  have hsave := hp.before.sited.save_moves hn (r := r) (hr ▸ hp.placed.valid) t
  rwa [hr, hp.own] at hsave

/-- What is done to the files is done among those of the account. -/
theorem confined (hp : f.Proceeds s m u m' next) (hn : Path.isPlainName s.sessionFile = true) :
    Confined s f.account m.plant.files m'.plant.files := by
  have hhoused := hp.before.housed _ u hp.known
  have harchive : ∀ {t t'}, ChangesOnly (· = Path.place u.archive) t t' →
      Confined s f.account t t' := fun h => hp.own ▸ hp.placed.confined h
  -- Each thing a step does to the files stays in the directory, so any sequence of them does.
  refine hp.course.files (Confined.refl s f.account) .trans ?_
    (harchive (Files.remove_changes u.archive _))
    (fun bytes => harchive (Upload.write_changes hhoused bytes))
    (harchive (Upload.close_changes hhoused)) fun r t hr => ?_
  · rw [hp.before.sited.settings]
    exact .createDirectories s hp.valid _
  · have hsave := hp.before.sited.save_confined hn (r := r) (hr ▸ hp.placed.valid) t
    rwa [hr, hp.own] at hsave

/-- The upload that an operation works on keeps its account and its archive, and the file of its
writer stays there. -/
theorem becomes (hp : f.Proceeds s m u m' next) (hn : Path.isPlainName s.sessionFile = true) :
    ∃ v, m'.uploads[f.upload]? = some v ∧ v.account = u.account ∧ v.archive = u.archive ∧
      v.Housed m'.plant.files := by
  have hput : ∀ v, (m.put f.upload v).uploads[f.upload]? = some v :=
    Linked.known_put_self hp.known
  have hhoused := hp.before.housed _ u hp.known
  have hkept := hhoused.keep (hp.moves hn) (hp.placed.not_recorded f.account)
  have hc := hp.course
  -- The upload keeps its account and its path; its writer has gone, or writes on in the same file.
  cases hc with
  | accepted _ _ written => exact ⟨_, hput _, rfl, rfl, Upload.write_housed hhoused written⟩
  | discarded => exact ⟨_, hput _, rfl, rfl, Upload.housed_of_none rfl _⟩
  | submitted => exact ⟨_, hput _, rfl, rfl, Upload.housed_of_none rfl _⟩
  | failed => exact ⟨_, hput _, rfl, rfl, Upload.housed_of_none rfl _⟩
  | completed => exact ⟨_, hput _, rfl, rfl, hkept⟩
  | _ => exact ⟨u, hp.known, rfl, rfl, hkept⟩

/-- At most the account itself has no upload in progress any more. -/
theorem table (hp : f.Proceeds s m u m' next) :
    m'.find? = m.find? ∨ m'.find? = (unlink f.account m).find? := by
  have hown := hp.own
  have hc := hp.course
  cases hc with
  | unprepared => exact .inr rfl
  | discarded => exact .inr (by rw [← hown]; rfl)
  | failed => exact .inr (by rw [← hown]; rfl)
  | completed => exact .inr rfl
  | _ => exact .inl rfl

/-- It has no account find another upload. -/
theorem find_of_find (hp : f.Proceeds s m u m' next) {b : Account} {k : Nat}
    (h : m'.find? b = some k) : m.find? b = some k := by
  rcases hp.table with hsame | hunlink
  · rwa [hsame] at h
  · rw [hunlink, Linked.find?_unlink] at h
    split at h
    · cases h
    · exact h

/-- Every account keeps the uploads that it has. -/
theorem keeps (hp : f.Proceeds s m u m' next) (hn : Path.isPlainName s.sessionFile = true)
    (b : Account) (k : Nat) (h : m.HasUpload b k) : m'.HasUpload b k := by
  obtain ⟨w, hw, hown⟩ := h
  by_cases hk : k = f.upload
  · subst hk
    obtain rfl : w = u := Option.some.inj (hw.symm.trans hp.known)
    obtain ⟨v, hv, hacc, -⟩ := hp.becomes hn
    exact ⟨v, hv, hacc.trans hown⟩
  · exact ⟨w, (hp.others k hk).trans hw, hown⟩

/-- A client leaves to every account what belongs to it. -/
theorem tenanted (hp : f.Proceeds s m u m' next) (hn : Path.isPlainName s.sessionFile = true) :
    m'.Tenanted s := by
  obtain ⟨v, hv, hacc, harch, hhoused⟩ := hp.becomes hn
  -- what holds of the upload that has changed, and of all others, holds of all
  have hall : ∀ {P : Upload → Prop}, P v →
      (∀ (k : Nat) (w : Upload), m.uploads[k]? = some w → P w) →
      ∀ (k : Nat) (w : Upload), m'.uploads[k]? = some w → P w := by
    intro P hself hold k w hw
    by_cases hk : k = f.upload
    · subst hk
      rwa [Option.some.inj (hw.symm.trans hv)]
    · exact hold k w ((hp.others k hk).symm.trans hw)
  have ⟨hset, hroot, hfile, hplaced⟩ := hp.before.sited
  have hplacedv : v.Placed s := by
    obtain ⟨hvalid, harchive⟩ := hp.placed
    exact ⟨hacc ▸ hvalid, by rw [hacc, harch]; exact harchive⟩
  refine ⟨⟨?_, ?_, ?_, hall hplacedv hplaced⟩, hall hhoused fun k w hw => ?_, fun b k h => ?_⟩
  · cases hp.course <;> exact hset
  · cases hp.course <;> exact hroot
  · cases hp.course <;> exact hfile
  · exact (hp.before.housed k w hw).keep (hp.moves hn) ((hplaced k w hw).not_recorded f.account)
  · exact hp.keeps hn b k (hp.before.live b k (hp.find_of_find h))

/-- A client serves the account of its operation. -/
theorem serves (hp : f.Proceeds s m u m' next) (hn : Path.isPlainName s.sessionFile = true) :
    m.ServesOnly s f.account m' := by
  refine ⟨fun b hb => ?_, fun k w hw => ?_, hp.confined hn⟩
  · rcases hp.table with hsame | hunlink
    · rw [hsame]
    · rw [hunlink, Linked.find?_unlink, if_neg (Ne.symm hb)]
  · by_cases hk : k = f.upload
    · -- the upload that it works on is of the account before and after
      subst hk
      obtain ⟨v, hv, hacc, -⟩ := hp.becomes hn
      constructor
      · intro h
        rw [Option.some.inj (h.symm.trans hv), hacc, hp.own] at hw
        exact absurd rfl hw
      · intro h
        rw [Option.some.inj (h.symm.trans hp.known), hp.own] at hw
        exact absurd rfl hw
    · rw [hp.others k hk]

/-- What is left of the operation is for the same upload. -/
theorem next_eq (hp : f.Proceeds s m u m' next) {g : Flight} (hg : next = some g) :
    g.account = f.account ∧ g.upload = f.upload := by
  have hc := hp.course
  cases hc with
  | discarded =>
    cases hg
    exact ⟨rfl, rfl⟩
  | _ => cases hg

end Flight.Proceeds

/-! ## Acts -/

/-- The account that an act is for, if it is for one. -/
def Act.account? (t : Traffic) : Act → Option Account
  | .ask _ (.register a _ _ _ _) | .ask _ (.append a _) | .ask _ (.finalize a _) => some a
  | .notice k _ => some k.job.account
  | .resume c => (t.flight? c).map Flight.account
  | .elsewhere _ => none

/-- The act is for no account but the one. -/
def Act.Serves (t : Traffic) (a : Account) (act : Act) : Prop := ∀ b ∈ act.account? t, b = a

/-- Every act is for no account but the one when its turn comes. -/
def Traffic.Serving (a : Account) (t : Traffic) : List Act → Prop
  | [] => True
  | act :: acts => act.Serves t a ∧ (act.step t).Serving a acts

/-- It can be decided whether an act serves an account. -/
instance (t : Traffic) (a : Account) (act : Act) : Decidable (act.Serves t a) :=
  inferInstanceAs (Decidable (∀ b ∈ act.account? t, b = a))

/-- Whether acts are for one account can be found out by doing them. -/
def Traffic.decideServing (a : Account) (t : Traffic) : (acts : List Act) →
    Decidable (t.Serving a acts)
  | [] => .isTrue trivial
  | act :: acts => @instDecidableAnd _ _ _ ((act.step t).decideServing a acts)

/-- It can be decided whether a run serves only an account, act by act. -/
instance (a : Account) (t : Traffic) (acts : List Act) : Decidable (t.Serving a acts) :=
  t.decideServing a acts

/-- Everything that is there or under way belongs to the account that it is found by. -/
structure Traffic.Tenanted (s : Settings) (t : Traffic) : Prop where
  manager : t.manager.Tenanted s
  flights : ∀ c f, t.flight? c = some f → t.manager.HasUpload f.account f.upload

namespace Traffic.Tenanted

variable {s : Settings} {t : Traffic}

/-- At first nothing is under way. -/
theorem start (s : Settings) (files : FileTree) (md : Metadata) :
    (Traffic.start s files md).Tenanted s :=
  ⟨.start s files md, fun _ _ h => nomatch h⟩

/-- A client goes on, with what is its account's. -/
theorem goOn (ht : t.Tenanted s) (c : Client) {m' : SessionManager} (hm : m'.Tenanted s)
    (hkeeps : ∀ b n, t.manager.HasUpload b n → m'.HasUpload b n) {next : Option Flight}
    (hnext : ∀ g, next = some g → m'.HasUpload g.account g.upload) :
    (t.goOn c m' next).Tenanted s := by
  refine ⟨?_, fun c' f' hf' => ?_⟩
  · rw [manager_goOn]
    exact hm
  · rw [manager_goOn]
    rw [flight?_goOn] at hf'
    split at hf'
    · exact hnext f' hf'
    · exact hkeeps _ _ (ht.flights c' f' hf')

/-- A client that has found an upload in progress begins to work on it. -/
theorem found (ht : t.Tenanted s) (c : Client) {f : Flight} (a : Account)
    (h : t.manager.find? f.account = some f.upload) :
    (t.goOn c t.manager (some f)).Tenanted s ∧
      t.manager.ServesOnly s a (t.goOn c t.manager (some f)).manager := by
  refine ⟨ht.goOn c ht.manager (fun _ _ h => h) fun g hg => ?_, ?_⟩
  · cases hg
    exact ht.manager.live _ _ h
  · rw [manager_goOn]
    exact .refl s a t.manager

/-- A caller that asks for something asks for its account. -/
theorem ask (ht : t.Tenanted s) (i : Nat) (op : Operation) :
    ((Act.ask i op).step t).Tenanted s ∧
      ∀ a, (Act.ask i op).Serves t a →
        t.manager.ServesOnly s a ((Act.ask i op).step t).manager := by
  have hsame : t.Tenanted s ∧ ∀ a, (Act.ask i op).Serves t a →
      t.manager.ServesOnly s a t.manager := ⟨ht, fun a _ => .refl s a t.manager⟩
  simp only [Act.step]
  split
  · exact hsame
  · -- Only opening a session changes the manager at once; the others just find their upload.
    cases op with
    | register a info requester id now =>
      simp only [beginOperation]
      rcases enter_cases t.manager a info requester id now with ⟨f, -, h⟩ |
        ⟨hvalid, hplain, hfree, -, h⟩
      · simp only [h]
        exact hsame
      · simp only [h]
        obtain ⟨hm, hserves, hkeeps, hnew⟩ := ht.manager.begin hvalid hplain hfree
        refine ⟨ht.goOn _ hm hkeeps fun g hg => ?_, fun b hb => ?_⟩
        · cases hg
          exact hnew
        · obtain rfl : a = b := hb a rfl
          rw [manager_goOn]
          exact hserves
    | append a bytes =>
      simp only [beginOperation]
      cases hfind : t.manager.find? a with
      | none => exact hsame
      | some n =>
        have hfound := fun b => ht.found (.caller i) (f := .appending a n bytes) b hfind
        exact ⟨(hfound a).1, fun b _ => (hfound b).2⟩
    | finalize a now =>
      simp only [beginOperation]
      cases hfind : t.manager.find? a with
      | none => exact hsame
      | some n =>
        have hfound := fun b => ht.found (.caller i) (f := .finalizing a n now) b hfind
        exact ⟨(hfound a).1, fun b _ => (hfound b).2⟩

/-- Whoever hears of the end of a job notes it for the account of the job. -/
theorem notice (ht : t.Tenanted s) (k : Ticket) (now : Timestamp) :
    ((Act.notice k now).step t).Tenanted s ∧
      ∀ a, (Act.notice k now).Serves t a →
        t.manager.ServesOnly s a ((Act.notice k now).step t).manager := by
  have hsame : t.Tenanted s ∧ ∀ a, (Act.notice k now).Serves t a →
      t.manager.ServesOnly s a t.manager := ⟨ht, fun a _ => .refl s a t.manager⟩
  simp only [Act.step]
  split
  · exact hsame
  · split
    · simp only [beginNote]
      cases hfind : t.manager.find? k.job.account with
      | some n =>
        have hfound := fun b =>
          ht.found (.watcher k.number) (f := .completing k n now) b hfind
        exact ⟨(hfound k.job.account).1, fun b _ => (hfound b).2⟩
      | none =>
        -- nobody waits for the job any more, and nothing else changes
        exact ⟨⟨ht.manager.of_same rfl rfl rfl rfl rfl rfl, ht.flights⟩,
          fun a _ => .of_same s a rfl rfl rfl⟩
    · exact hsame

/-- A client that goes on with its operation goes on for the account of the operation. -/
theorem resume (ht : t.Tenanted s) (hn : Path.isPlainName s.sessionFile = true) (c : Client) :
    ((Act.resume c).step t).Tenanted s ∧
      ∀ a, (Act.resume c).Serves t a →
        t.manager.ServesOnly s a ((Act.resume c).step t).manager := by
  cases hf : t.flight? c with
  | none =>
    simp only [Act.step, hf]
    exact ⟨ht, fun a _ => .refl s a t.manager⟩
  | some f =>
    -- An operation that is held back serves nobody.
    cases hlocked : t.isLocked f with
    | true =>
      simp only [Act.step, hf, hlocked, if_true]
      exact ⟨ht, fun a _ => .refl s a t.manager⟩
    | false =>
      rw [Act.step_resume hf hlocked]
      obtain ⟨u, hu, hown⟩ := ht.flights c f hf
      have hp : f.Proceeds s t.manager u (f.proceed t.manager).1 (f.proceed t.manager).2 :=
        ⟨ht.manager, hu, hown, f.course hu, fun k hk => f.proceed_uploads t.manager hk⟩
      refine ⟨ht.goOn c (hp.tenanted hn) (hp.keeps hn) fun g hg => ?_, fun a ha => ?_⟩
      · obtain ⟨hacc, hup⟩ := hp.next_eq hg
        rw [hacc, hup]
        exact hp.keeps hn _ _ ⟨u, hu, hown⟩
      · obtain rfl : f.account = a := ha f.account (by rw [Act.account?, hf]; rfl)
        rw [manager_goOn]
        exact hp.serves hn

/-- What is no request is for nobody, and leaves to everybody what they have. -/
theorem elsewhere (ht : t.Tenanted s) (e : Event) :
    ((Act.elsewhere e).step t).Tenanted s ∧
      ∀ a, t.manager.ServesOnly s a ((Act.elsewhere e).step t).manager := by
  simp only [Act.step]
  split
  next ha =>
    have he := effect e t.manager
    obtain ⟨hfind, hup, -, hfiles⟩ := he.apart ha
    have hset : (e.step t.manager).settings = t.manager.settings ∧
        (e.step t.manager).records.root = t.manager.records.root ∧
        (e.step t.manager).records.fileName = t.manager.records.fileName := by
      generalize e.step t.manager = m', e.notes t.manager = notes at he ⊢
      -- None of the events that happen apart from the sessions touches where the files lie.
      cases he with
      | nothing => exact ⟨rfl, rfl, rfl⟩
      | worked => exact ⟨rfl, rfl, rfl⟩
      | outage => exact ⟨rfl, rfl, rfl⟩
      | _ => cases ha
    refine ⟨⟨ht.manager.of_same hset.1 hset.2.1 hset.2.2 hfind hup hfiles, fun c f hf => ?_⟩,
      fun a => .of_same s a hfind hup hfiles⟩
    obtain ⟨u, hu, hown⟩ := ht.flights c f hf
    exact ⟨u, hup ▸ hu, hown⟩
  next => exact ⟨ht, fun a => .refl s a t.manager⟩

/-- Every act leaves to every account what belongs to it, and serves no other than the one that it
is for. -/
theorem step (ht : t.Tenanted s) (hn : Path.isPlainName s.sessionFile = true) (act : Act) :
    (act.step t).Tenanted s ∧
      ∀ a, act.Serves t a → t.manager.ServesOnly s a (act.step t).manager := by
  cases act with
  | ask i op => exact ht.ask i op
  | notice k now => exact ht.notice k now
  | resume c => exact ht.resume hn c
  | elsewhere e => exact (ht.elsewhere e).imp_right fun h a _ => h a

/-- After every run accounts keep to what is theirs. -/
theorem after (ht : t.Tenanted s) (hn : Path.isPlainName s.sessionFile = true)
    (acts : List Act) : (t.after acts).Tenanted s := by
  induction acts generalizing t with
  | nil => exact ht
  | cons act acts ih => exact ih (ht.step hn act).1

/-- Acts for one account serve no other. -/
theorem serves (ht : t.Tenanted s) (hn : Path.isPlainName s.sessionFile = true) {a : Account}
    {acts : List Act} (ha : t.Serving a acts) :
    t.manager.ServesOnly s a (t.after acts).manager := by
  induction acts generalizing t with
  | nil => exact .refl s a t.manager
  | cons act acts ih =>
    obtain ⟨hfirst, hrest⟩ := ha
    obtain ⟨ht', hserves⟩ := ht.step hn act
    exact (hserves a hfirst).trans (ih ht' hrest)

end Traffic.Tenanted

/-- Accounts keep to their directories. Whatever comes between what, and whatever fails: acts for an
account change no files but those right in its directory, and make no directories but those on the
way to it. Every other account keeps its upload in progress, all others of its uploads, its archives
and its record. As this is so whatever files there are, an act also makes no file in passing that
lies elsewhere. An archive lies in the directory of its account, and where no record of any account
is or is written to; and different accounts, or different file names, have different archives. -/
theorem keeps_to_its_directory (s : Settings) (hs : s.validate = .ok ()) (files : FileTree)
    (md : Metadata) (acts acts' : List Act) (a : Account) :
    let t := (Traffic.start s files md).after acts
    let t' := t.after acts'
    (t.Serving a acts' →
      (∀ p, ¬ s.Owns a p → Same t.manager.plant.files t'.manager.plant.files p ∨
        s.OnWay a p ∧ t.manager.plant.files.find? p = none ∧
          t'.manager.plant.files.find? p = some .directory) ∧
      ∀ b, b ≠ a →
        t'.manager.find? b = t.manager.find? b ∧
        (∀ (n : Nat) (u : Upload), u.account = b →
          (t'.manager.uploads[n]? = some u ↔ t.manager.uploads[n]? = some u)) ∧
        ∀ name, b.isValid = true → Path.isPlainName name = true →
          let path := Path.join (s.accountDirectory b) name
          (∀ bytes, t.manager.plant.files.read path = .ok bytes →
            t'.manager.plant.files.read path = .ok bytes) ∧
          (t.manager.plant.files.Reaches s.archiveDir →
            t'.manager.plant.files.read path = t.manager.plant.files.read path)) ∧
    (∀ (n : Nat) (u : Upload), t.manager.uploads[n]? = some u →
      s.Owns u.account (Path.place u.archive) ∧
      ∀ b path, t.manager.records.path b = .ok path →
        Path.place u.archive ≠ Path.place path ∧
        Path.place u.archive ≠ Path.place (t.manager.records.pathBeside path)) ∧
    ∀ (b c : Account) (name name' : String), b.isValid = true → c.isValid = true →
      Path.isPlainName name = true → Path.isPlainName name' = true →
      Path.place (Path.join (s.accountDirectory b) name) =
        Path.place (Path.join (s.accountDirectory c) name') → b = c ∧ name = name' := by
  intro t t'
  have hn := Settings.isPlainName_of_validate hs
  have ht : t.Tenanted s := (Traffic.Tenanted.start s files md).after hn acts
  refine ⟨fun ha => ?_, fun n u hu => ?_, fun b c name name' hb hc hname hname' h => ?_⟩
  · have hserves := ht.serves hn ha
    refine ⟨hserves.files.kept, fun b hb => ⟨hserves.find b hb, fun n u hu => ?_,
      fun name hv hname => ⟨fun bytes hr => ?_, fun hr => ?_⟩⟩⟩
    · exact hserves.uploads n u (hu ▸ hb)
    · exact hserves.files.read hb hv hname hr
    · exact hserves.files.read_eq hb hv hname hr
  · have hp := ht.manager.sited.placed n u hu
    exact ⟨hp.owns, fun b path h => ht.manager.sited.archive_apart hn hp h⟩
  · exact s.join_unique hb hc hname hname' h

namespace Sample

/-- The neighbour sends an archive and ends its upload. -/
def neighbourSent : List Act :=
  through 1 (begun neighbour 1) ++ through 1 (.append neighbour descriptor) ++
    through 1 (.finalize neighbour now)

/-- The account sends an archive and ends its upload, and then its deployment ends. -/
def deployed : List Act :=
  through 0 (begun account 0) ++ sent 0 ++
    [.elsewhere .take, .elsewhere .take, .elsewhere (.finish 1), .notice ⟨1, job⟩ now,
      .resume (.watcher 1)]

end Sample

open Sample in
/-- An account uploads and deploys; its neighbour keeps its upload, and its archive stays what it
is. -/
theorem deployment_spares_neighbour :
    let t := traffic neighbourSent
    let archive := Path.join (settings.accountDirectory neighbour) "app.json"
    settings.validate = .ok () ∧ t.Serving account deployed ∧
      (t.after deployed).manager.uploads[1]?.map (·.status) = some .deployed ∧
      (t.after deployed).manager.find? neighbour = some 0 ∧
      (t.manager.plant.files.read archive).toOption = some descriptor ∧
      (t.after deployed).manager.plant.files.read archive = t.manager.plant.files.read archive := by
  intro t archive
  have hserving : t.Serving account deployed := by decide +kernel
  have hfind : t.manager.find? neighbour = some 0 := by decide +kernel
  have hreach : t.manager.plant.files.isDirectory settings.archiveDir = true := by decide +kernel
  obtain ⟨-, hothers⟩ := (keeps_to_its_directory settings rfl .empty .empty neighbourSent deployed
    account).1 hserving
  obtain ⟨hlive, -, hfiles⟩ := hothers neighbour (by decide)
  refine ⟨rfl, hserving, by decide +kernel, hlive.trans hfind, by decide +kernel, ?_⟩
  exact (hfiles "app.json" (by decide) (by decide)).2 (reaches_of_isDirectory hreach)

end Deployment
