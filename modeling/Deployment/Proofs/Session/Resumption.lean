import Deployment.Proofs.Session.Order

/-! # Going on in order

A client that goes on with its operation changes the upload that it works on, its place in the
table, its archive, and in the end the record of its account. As long as uploads are thrown away
with care that is all, and so everything stays in order.

* **`Traffic.Resumes`** — a client goes on with care.
* **`Flight.Touches`** — the places that it changes.
* **`Resumes.table`**, **`Resumes.files`** — what becomes of the table and of the files.
* **`Orderly.step`**, **`Orderly.after`** — every act that is careful keeps the order, and so does
  every run. -/

namespace Deployment

open Stateful FileTree SessionManager

/-- The places that a client changes when it goes on, if anything is there: the archive of the
upload that it works on, and once that upload has ended the record of its account. -/
def Flight.Touches (s : Settings) (f : Flight) (u : Upload) (m m' : SessionManager) (p : Place) :
    Prop :=
  (p = Path.place u.archive ∧ (f.isDeleting = true ∧ m.find? f.account = none ∨
      m.find? f.account = some f.upload)) ∨
    (s.Recorded f.account p ∧ m.find? f.account = some f.upload ∧
      m'.HasEnded f.account f.upload)

/-- A client goes on with care, while everything is in order. -/
structure Traffic.Resumes (s : Settings) (t : Traffic) (c : Client) (f : Flight) (u : Upload)
    (m' : SessionManager) (next : Option Flight) : Prop where
  order : t.Orderly s
  flight : t.flight? c = some f
  known : t.manager.uploads[f.upload]? = some u
  care : f.throwsAway t.manager = true → t.Alone c f.account
  course : f.Course t.manager u m' next
  others : ∀ k, k ≠ f.upload → m'.uploads[k]? = t.manager.uploads[k]?

namespace Traffic.Resumes

variable {s : Settings} {t : Traffic} {c : Client} {f : Flight} {u : Upload}
  {m' : SessionManager} {next : Option Flight}

/-! ## The upload -/

/-- The upload is of the account of the operation. -/
theorem own (hr : t.Resumes s c f u m' next) : u.account = f.account := by
  obtain ⟨u', hu', hown⟩ := hr.order.known hr.flight
  rw [Option.some.inj (hr.known.symm.trans hu')]
  exact hown

/-- An upload that may still change is in progress. -/
theorem current (hr : t.Resumes s c f u m' next) (hd : f.isDeleting = false) {status : Status}
    (may : u.status.allows status = true) : t.manager.InProgress f.account f.upload u :=
  hr.order.current hr.flight hr.known hd (Status.not_terminal_of_allows may)

/-- The end of a job that is waited for is noted in the upload of its account. -/
theorem completing {k : Ticket} {n : Nat} {now : Timestamp}
    (hr : t.Resumes s c (.completing k n now) u m' next) :
    c = .watcher k.number ∧ k ∈ t.manager.pending ∧ t.manager.InProgress k.job.account n u := by
  cases hr.order.standing c _ hr.flight with
  | completing client waits current => exact ⟨client, waits, current, hr.known⟩

/-- While its archive is deleted an account has no upload. -/
theorem idle_of_deleting {a : Account} {n : Nat} (hr : t.Resumes s c (.deleting a n) u m' next) :
    t.manager.find? a = none := by
  cases hr.order.standing c _ hr.flight with
  | deleting idle => exact idle

/-- A client goes on within what holds uploads and jobs together, and keeps to the settings. -/
theorem linked (hr : t.Resumes s c f u m' next) : (∃ h, Linked h m') ∧ Sited s m' := by
  obtain ⟨h, hl⟩ := hr.order.linked
  have hs := hr.order.sited
  have ⟨hset, hroot, hfile, hplaced⟩ := hs
  -- Most halves do what some event does. Making the directory, deleting the archive and throwing
  -- away without deleting are halves of events, and need an argument of their own.
  have heffect : ∀ {e notes}, Effect t.manager e m' notes → (∃ h, Linked h m') ∧ Sited s m' :=
    fun he => ⟨⟨_, hl.step he⟩, hs.step hl he⟩
  have hc := hr.course
  cases hc with
  | prepared =>
    exact ⟨⟨h, hl.keep rfl (hl.accounts_of_same rfl rfl rfl) rfl (.refl _)⟩,
      hset, hroot, hfile, hplaced⟩
  | unprepared made thrown =>
    exact ⟨⟨h, hl.keep rfl (hl.unlink_quiet (hr.care thrown).2 rfl rfl) rfl (.refl _)⟩,
      hset, hroot, hfile, hplaced⟩
  | deleted =>
    exact ⟨⟨h, hl.keep rfl (hl.accounts_of_same rfl rfl rfl) rfl (.refl _)⟩,
      hset, hroot, hfile, hplaced⟩
  | partRefused => exact ⟨⟨h, hl⟩, hs⟩
  | endRefused => exact ⟨⟨h, hl⟩, hs⟩
  | unended => exact ⟨⟨h, hl⟩, hs⟩
  | @accepted a n bytes w files may nonempty written =>
    have hcur : t.manager.InProgress a n u := hr.current rfl may
    exact heffect (.accepted hcur may nonempty written)
  | @discarded a n bytes files may left thrown =>
    have hstatus := Status.allows_uploading.1 may
    have hcur : t.manager.InProgress a n u := hr.current rfl may
    have hlive : (withFiles files (unlink u.account (t.manager.put n u.thrownAway))).find? =
        (unlink a (t.manager.put n u.thrownAway)).find? := by rw [hr.own]; rfl
    have haccounts := hl.accounts_of_unlink hcur hlive rfl (hl.jobsOf_of_open hcur hstatus)
      fun _ _ => rfl
    exact ⟨⟨h, hl.keep rfl haccounts rfl (.refl _)⟩, hset, hroot, hfile,
      hs.put hr.known rfl rfl⟩
  | @submitted a n now files p number may closed taken =>
    have hcur : t.manager.InProgress a n u := hr.current rfl may
    exact heffect (e := .finalize a now) (.submitted hcur may closed taken)
  | @failed a n now files p reason may left pool queue =>
    have hcur : t.manager.InProgress a n u := hr.current rfl may
    exact heffect (.failed hcur may left pool queue)
  | completed ended =>
    obtain ⟨-, waits, hcur⟩ := hr.completing
    exact heffect (.recorded waits ended hcur)

/-- The upload that an operation works on stays what it is, and does not change once it has
ended. -/
theorem becomes (hr : t.Resumes s c f u m' next) :
    ∃ v, m'.uploads[f.upload]? = some v ∧ v.account = u.account ∧ v.archive = u.archive ∧
      (u.status.isTerminal = true → v = u) := by
  have hput : ∀ v, (t.manager.put f.upload v).uploads[f.upload]? = some v :=
    Linked.known_put_self hr.known
  -- what may go on has not ended
  have hopen : ∀ {status : Status} {v : Upload}, u.status.allows status = true →
      u.status.isTerminal = true → v = u := by
    intro status v may ht
    rw [Status.not_terminal_of_allows may] at ht
    cases ht
  have hc := hr.course
  cases hc with
  | accepted may => exact ⟨_, hput _, rfl, rfl, hopen may⟩
  | discarded may => exact ⟨_, hput _, rfl, rfl, hopen may⟩
  | submitted may => exact ⟨_, hput _, rfl, rfl, hopen may⟩
  | failed may => exact ⟨_, hput _, rfl, rfl, hopen may⟩
  | completed ended =>
    -- its job is waited for, so that the upload is being verified
    obtain ⟨h, hl⟩ := hr.order.linked
    obtain ⟨-, waits, hcur⟩ := hr.completing
    obtain ⟨n', u', hcur', hs, -⟩ := hl.of_pending waits
    obtain ⟨-, rfl⟩ := hcur.unique hcur'
    refine ⟨_, hput _, rfl, rfl, fun ht => ?_⟩
    rw [hs] at ht
    cases ht
  | _ => exact ⟨u, hr.known, rfl, rfl, fun _ => rfl⟩

/-- An upload that has ended stays so. -/
theorem hasEnded (hr : t.Resumes s c f u m' next) {a : Account} {n : Nat}
    (he : t.manager.HasEnded a n) : m'.HasEnded a n := by
  obtain ⟨w, hw, ha, ht⟩ := he
  by_cases hn : n = f.upload
  · subst hn
    obtain rfl : w = u := Option.some.inj (hw.symm.trans hr.known)
    obtain ⟨v, hv, -, -, hsame⟩ := hr.becomes
    exact ⟨v, hv, hsame ht ▸ ha, hsame ht ▸ ht⟩
  · exact ⟨w, (hr.others n hn).trans hw, ha, ht⟩

/-- A client takes no upload out of the table but the one that it works on, which has ended by
then or is thrown away. -/
theorem table (hr : t.Resumes s c f u m' next) :
    m'.find? = t.manager.find? ∨
      m'.find? = (unlink f.account t.manager).find? ∧
        (t.manager.find? f.account = none ∨ t.manager.find? f.account = some f.upload) ∧
        (f.throwsAway t.manager = true ∨ m'.HasEnded f.account f.upload) := by
  obtain ⟨h, hl⟩ := hr.order.linked
  have hc := hr.course
  cases hc with
  | prepared => exact .inl rfl
  | deleted => exact .inl rfl
  | partRefused => exact .inl rfl
  | endRefused => exact .inl rfl
  | unended => exact .inl rfl
  | accepted => exact .inl rfl
  | submitted => exact .inl rfl
  | @unprepared a n files fault made thrown =>
    refine .inr ⟨rfl, ?_, .inl thrown⟩
    cases hfind : t.manager.find? a with
    | none => exact .inl hfind
    | some k =>
      refine .inr ?_
      obtain ⟨v, hv⟩ := hl.known hfind
      obtain ⟨hdir | ⟨c', hc'⟩, -⟩ := hr.order.ready a k v hv
      · -- the directory is there, so that it cannot be the one that could not be made
        rw [← hr.order.sited.settings] at hdir
        rw [Files.createDirectories_made hdir] at made
        cases made
      · -- somebody still makes it, and with care that is nobody but the client
        obtain rfl := (hr.care thrown).1 c' _ hc' rfl
        rw [hr.flight] at hc'
        cases hc'
        exact hfind
  | @discarded a n bytes files may left thrown =>
    have hcur : t.manager.InProgress a n u := hr.current rfl may
    refine .inr ⟨?_, .inr hcur.find, .inl thrown⟩
    rw [← hr.own]
    rfl
  | @failed a n now files p reason may left pool queue =>
    have hcur : t.manager.InProgress a n u := hr.current rfl may
    refine .inr ⟨?_, .inr hcur.find, .inr ⟨_, Linked.known_put_self hr.known _, hr.own, rfl⟩⟩
    rw [← hr.own]
    rfl
  | @completed k n now r ended =>
    obtain ⟨-, -, hcur⟩ := hr.completing
    refine .inr ⟨rfl, .inr hcur.find, .inr ⟨_, Linked.known_put_self hr.known _, hr.own, ?_⟩⟩
    cases r <;> rfl

/-- Of what is there a client changes only what its operation touches. -/
theorem files (hr : t.Resumes s c f u m' next) (hn : Path.isPlainName s.sessionFile = true) :
    Retains (f.Touches s u t.manager m') t.manager.plant.files m'.plant.files := by
  have hs := hr.order.sited
  have hp := hs.placed _ u hr.known
  -- What is done to the archive of an upload in progress is its own.
  have harchive : ∀ {files}, t.manager.find? f.account = some f.upload →
      ChangesOnly (· = Path.place u.archive) t.manager.plant.files files →
      Retains (f.Touches s u t.manager m') t.manager.plant.files files := by
    intro files hfind hch
    refine hch.retains.mono ?_
    rintro p rfl
    exact .inl ⟨rfl, .inr hfind⟩
  have hdirs := fun a => Files.createDirectories_retains (f.Touches s u t.manager m')
    (t.manager.settings.accountDirectory a) t.manager.plant.files
  have hc := hr.course
  cases hc with
  | @prepared a n files made =>
    have hdir := hdirs a
    rw [finalState_of_ok made] at hdir
    exact hdir
  | @unprepared a n files fault made =>
    have hdir := hdirs a
    rw [finalState_of_error made] at hdir
    exact hdir
  | deleted =>
    refine (Files.remove_changes u.archive _).retains.mono ?_
    rintro p rfl
    exact .inl ⟨rfl, .inl ⟨rfl, hr.idle_of_deleting⟩⟩
  | partRefused => exact .refl _ _
  | endRefused => exact .refl _ _
  | unended => exact .refl _ _
  | @accepted a n bytes w files may nonempty written =>
    have hcur : t.manager.InProgress a n u := hr.current rfl may
    obtain ⟨-, given, hg⟩ := hr.order.ready a n u hcur
    exact harchive hcur.find (Upload.written_changes hg.housed written)
  | @discarded a n bytes files may left thrown =>
    have hcur : t.manager.InProgress a n u := hr.current rfl may
    obtain ⟨-, given, hg⟩ := hr.order.ready a n u hcur
    exact harchive hcur.find (Upload.unwritten_changes hg.housed left)
  | @submitted a n now files p number may closed taken =>
    have hcur : t.manager.InProgress a n u := hr.current rfl may
    obtain ⟨-, given, hg⟩ := hr.order.ready a n u hcur
    exact harchive hcur.find (Upload.closed_changes hg.housed closed)
  | @failed a n now files p reason may left pool queue =>
    have hcur : t.manager.InProgress a n u := hr.current rfl may
    obtain ⟨-, given, hg⟩ := hr.order.ready a n u hcur
    have hclose := harchive hcur.find (Upload.close_changes hg.housed)
    have hsave := hs.save_retains hn (r := (u.failedFor reason).record now) hp.valid files
    rw [← left] at hclose
    refine hclose.trans (hsave.mono fun p hrec => .inr ⟨?_, hcur.find, ?_⟩)
    · rw [← hr.own]
      exact hrec
    · exact ⟨_, Linked.known_put_self hr.known _, hr.own, rfl⟩
  | @completed k n now r ended =>
    obtain ⟨-, -, hcur⟩ := hr.completing
    have hsave := hs.save_retains hn (r := (u.endedWith r).record now) hp.valid
      t.manager.plant.files
    refine hsave.mono fun p hrec => .inr ⟨?_, hcur.find, ?_⟩
    · rw [← hr.own]
      exact hrec
    · refine ⟨_, Linked.known_put_self hr.known _, hr.own, ?_⟩
      cases r <;> rfl

/-- Archives of other uploads are left alone: those in progress, and those that lie elsewhere. -/
theorem not_touched (hr : t.Resumes s c f u m' next) {n : Nat} {v : Upload}
    (hne : n ≠ f.upload) (hv : t.manager.uploads[n]? = some v)
    (happart : t.manager.find? v.account = some n ∨ u.archive ≠ v.archive) :
    ¬ f.Touches s u t.manager m' (Path.place v.archive) := by
  have hpv := hr.order.sited.placed n v hv
  have hpu := hr.order.sited.placed _ u hr.known
  -- A file at the same place would be one archive, of one account with two uploads.
  rintro (⟨hplace, hlive⟩ | ⟨hrec, -⟩)
  · obtain ⟨hacc, harch⟩ := hpv.archive_eq hpu hplace
    rcases happart with hfind | hdiff
    · rw [hacc, hr.own] at hfind
      rcases hlive with ⟨-, hidle⟩ | hlive
      · exact nomatch hidle.symm.trans hfind
      · exact hne (Option.some.inj (hfind.symm.trans hlive))
    · exact hdiff harch.symm
  · exact hpv.not_recorded _ hrec

/-- An account that has an upload in progress after a client has gone on had it before. -/
theorem find_of_find (hr : t.Resumes s c f u m' next) {b : Account} {k : Nat}
    (hk : m'.find? b = some k) : t.manager.find? b = some k := by
  rcases hr.table with hsame | ⟨hunlink, -, -⟩
  · rwa [hsame] at hk
  · rw [hunlink, Linked.find?_unlink] at hk
    split at hk
    · cases hk
    · exact hk

/-- The archive of the upload that an operation works on still holds what was given to it, if the
upload is in progress then. -/
theorem given (hr : t.Resumes s c f u m' next)
    (hfind : t.manager.find? f.account = some f.upload) {v : Upload}
    (hv : m'.InProgress f.account f.upload v) : ∃ given, v.Given m'.plant.files given := by
  have hp := hr.order.sited.placed _ u hr.known
  obtain ⟨-, given, hg⟩ := hr.order.ready _ _ u ⟨hfind, hr.known⟩
  -- what leaves the table is not in progress any more
  have hgone : m'.find? = (unlink f.account t.manager).find? → False := by
    intro hunlink
    have hnone := hv.find
    rw [hunlink, Linked.find?_unlink, if_pos rfl] at hnone
    cases hnone
  have hc := hr.course
  cases hc with
  | @prepared a n files made =>
    obtain rfl : v = u := Option.some.inj (hv.known.symm.trans hr.known)
    have hdir := Files.createDirectories_retains (fun _ => False)
      (t.manager.settings.accountDirectory a) t.manager.plant.files
    rw [finalState_of_ok made] at hdir
    exact ⟨given, hg.retained hp hdir id⟩
  | deleted => exact nomatch hr.idle_of_deleting.symm.trans hfind
  | partRefused =>
    obtain rfl : v = u := Option.some.inj (hv.known.symm.trans hr.known)
    exact ⟨given, hg⟩
  | endRefused =>
    obtain rfl : v = u := Option.some.inj (hv.known.symm.trans hr.known)
    exact ⟨given, hg⟩
  | unended =>
    obtain rfl : v = u := Option.some.inj (hv.known.symm.trans hr.known)
    exact ⟨given, hg⟩
  | @accepted a n bytes w files may nonempty written =>
    obtain rfl : v = u.receiving w :=
      Option.some.inj (hv.known.symm.trans (Linked.known_put_self hr.known _))
    exact ⟨_, Upload.write_given hp (Upload.reaches_of_write hp hg written) hg written⟩
  | submitted =>
    obtain rfl : v = u.waiting :=
      Option.some.inj (hv.known.symm.trans (Linked.known_put_self hr.known _))
    exact ⟨[], rfl⟩
  | unprepared => exact (hgone rfl).elim
  | discarded => exact (hgone (by rw [← hr.own]; rfl)).elim
  | failed => exact (hgone (by rw [← hr.own]; rfl)).elim
  | completed => exact (hgone rfl).elim

/-- Uploads in progress stay ready for what comes. -/
theorem ready (hr : t.Resumes s c f u m' next) (hn : Path.isPlainName s.sessionFile = true)
    {b : Account} {k : Nat} {v : Upload} (hv : m'.InProgress b k v) :
    (m'.plant.files.isDirectory (s.accountDirectory b) = true ∨
        ∃ c', (t.goOn c m' next).flight? c' = some (.preparing b k)) ∧
      ∃ given, v.Given m'.plant.files given := by
  obtain ⟨h, hl⟩ := hr.order.linked
  have htable := hr.table
  have hfiles := hr.files hn
  have hfind := hr.find_of_find hv.find
  obtain ⟨w, hw⟩ := hl.known hfind
  have hpw := hr.order.sited.placed k w hw.known
  have hownw : w.account = b := hl.own hw
  obtain ⟨hdir, given, hg⟩ := hr.order.ready b k w hw
  refine ⟨?_, ?_⟩
  · rcases hdir with hdir | ⟨c₁, hc₁⟩
    · left
      have hname := Account.isPlainName_of_isValid hpw.valid
      rw [hownw] at hname
      exact ChangesOnly.isDirectory hfiles hname hdir
    · by_cases hcc : c = c₁
      · -- The client itself prepares the upload.
        subst hcc
        obtain rfl : f = .preparing b k := Option.some.inj (hr.flight.symm.trans hc₁)
        left
        have hc := hr.course
        cases hc with
        | prepared made =>
          have hname := Account.isPlainName_of_isValid hpw.valid
          rw [hownw] at hname
          rw [hr.order.sited.settings] at made
          exact Files.createDirectories_isDirectory hname made
        | unprepared =>
          have hnone : (unlink b t.manager).find? b = some k := hv.find
          rw [Linked.find?_unlink, if_pos rfl] at hnone
          cases hnone
      · right
        refine ⟨c₁, ?_⟩
        rw [flight?_goOn, if_neg hcc]
        exact hc₁
  · by_cases hk : k = f.upload
    · subst hk
      obtain rfl : b = f.account := by
        rw [← hownw, ← hr.own, Option.some.inj (hw.known.symm.trans hr.known)]
      exact hr.given hfind hv
    · have hsame := (hr.others k hk).trans hw.known
      obtain rfl : v = w := Option.some.inj (hv.known.symm.trans hsame)
      refine ⟨given, hg.retained hpw hfiles (hr.not_touched hk hw.known (.inl ?_))⟩
      rw [hownw]
      exact hfind

/-- A deployment that others wait for is waited for still, and its account has what it had. -/
theorem waits (hr : t.Resumes s c f u m' next) {k : Ticket} (hk : k ∈ t.manager.pending)
    (hne : c ≠ .watcher k.number) :
    k ∈ m'.pending ∧ m'.find? k.job.account = t.manager.find? k.job.account := by
  obtain ⟨h, hl⟩ := hr.order.linked
  have hunlink : ∀ {a : Account} {m : SessionManager}, a ≠ k.job.account →
      m.find? k.job.account = t.manager.find? k.job.account →
      (unlink a m).find? k.job.account = t.manager.find? k.job.account := by
    intro a m hak hm
    rw [Linked.find?_unlink, if_neg hak, hm]
  have hc := hr.course
  cases hc with
  | prepared => exact ⟨hk, rfl⟩
  | deleted => exact ⟨hk, rfl⟩
  | partRefused => exact ⟨hk, rfl⟩
  | endRefused => exact ⟨hk, rfl⟩
  | unended => exact ⟨hk, rfl⟩
  | accepted => exact ⟨hk, rfl⟩
  | submitted => exact ⟨List.mem_append_left _ hk, rfl⟩
  | @unprepared a n files fault made thrown =>
    exact ⟨hk, hunlink (m := withFiles files t.manager) ((hr.care thrown).2 k hk).symm rfl⟩
  | @discarded a n bytes files may left thrown =>
    have hak : u.account ≠ k.job.account := by
      rw [hr.own]
      exact ((hr.care thrown).2 k hk).symm
    exact ⟨hk, hunlink (m := t.manager.put n u.thrownAway) hak rfl⟩
  | @failed a n now files p reason may left pool queue =>
    have hopen := Status.allows_verifying.1 may
    have hcur : t.manager.InProgress a n u := hr.current rfl may
    have hak : u.account ≠ k.job.account := by
      -- An upload whose deployment is waited for is not open any more.
      intro hak
      obtain ⟨n', u', hcur', hs, -⟩ := hl.of_pending hk
      rw [← hak, hr.own] at hcur'
      obtain ⟨-, rfl⟩ := hcur.unique hcur'
      rw [hs] at hopen
      exact hopen.elim nofun nofun
    exact ⟨hk, hunlink (m := withPool p (t.manager.put n (u.failedFor reason))) hak rfl⟩
  | @completed k₀ n now r ended =>
    obtain ⟨client, waits, -⟩ := hr.completing
    have hkk : k ≠ k₀ := by
      rintro rfl
      exact hne client
    have hak : k₀.job.account ≠ k.job.account := by
      intro hak
      exact hkk (hl.pending_unique hk waits hak.symm)
    refine ⟨List.mem_filter.2 ⟨hk, by simpa using hkk⟩, ?_⟩
    exact hunlink (m := t.manager.put n (u.endedWith r)) hak rfl

/-- A deployment that is waited for after a client has gone on was waited for before, or is of the
client's account. -/
theorem pending (hr : t.Resumes s c f u m' next) {k : Ticket} (hk : k ∈ m'.pending) :
    k ∈ t.manager.pending ∨ k.job.account = f.account := by
  have hc := hr.course
  cases hc with
  | @submitted a n now files p number may closed taken =>
    rcases List.mem_append.1 hk with hk | hk
    · exact .inl hk
    · obtain rfl := List.mem_singleton.1 hk
      exact .inr hr.own
  | completed => exact .inl (List.mem_filter.1 hk).1
  | _ => exact .inl hk

/-- What is left of an operation stands as it should. -/
theorem next_stands (hr : t.Resumes s c f u m' next) {f' : Flight} (hnext : next = some f') :
    f'.account = f.account ∧ (t.goOn c m' next).Stands c f' := by
  have hc := hr.course
  cases hc with
  -- Only throwing away has a second step; care keeps others off the account until then.
  | @discarded a n bytes files may left thrown =>
    cases hnext
    obtain ⟨hflights, hpending⟩ := hr.care thrown
    refine ⟨rfl, .deleting (u := u.thrownAway) ?_ ⟨fun c' f' hf' ha => ?_, ?_⟩ ?_ hr.own⟩
    · have hown : u.account = a := hr.own
      rw [manager_goOn, ← hown]
      exact (Linked.find?_unlink (t.manager.put n u.thrownAway) u.account u.account).trans
        (if_pos rfl)
    · rw [flight?_goOn] at hf'
      split at hf'
      next hcc => exact hcc.symm
      next => exact hflights c' f' hf' ha
    · rw [manager_goOn]
      exact hpending
    · rw [manager_goOn]
      exact Linked.known_put_self hr.known _
  | _ => cases hnext

/-- Where no upload of its account is thrown away, an upload stays in progress or ends. -/
theorem keeps (hr : t.Resumes s c f u m' next) {b : Account} {n : Nat}
    (happart : f.throwsAway t.manager = true → b ≠ f.account)
    (hown : t.manager.find? b = some n ∨ t.manager.HasEnded b n) :
    m'.find? b = some n ∨ m'.HasEnded b n := by
  rcases hown with hfind | hended
  · rcases hr.table with hsame | ⟨hunlink, hlive, hend⟩
    · exact .inl (by rw [hsame, hfind])
    · by_cases hacc : f.account = b
      · right
        subst hacc
        -- Its session goes, so the upload asked about is the one of this operation, which has
        -- ended.
        obtain rfl : n = f.upload := by
          rcases hlive with hlive | hlive
          · exact nomatch hlive.symm.trans hfind
          · exact Option.some.inj (hfind.symm.trans hlive)
        exact hend.resolve_left fun hthrown => happart hthrown rfl
      · left
        rw [hunlink, Linked.find?_unlink, if_neg hacc, hfind]
  · exact .inr (hr.hasEnded hended)

/-- The operations of all clients stand as they should after one has gone on. -/
theorem standing (hr : t.Resumes s c f u m' next) {c' : Client} {f' : Flight}
    (hf' : (t.goOn c m' next).flight? c' = some f') : (t.goOn c m' next).Stands c' f' := by
  by_cases hcc : c = c'
  · subst hcc
    rw [flight?_goOn, if_pos rfl] at hf'
    exact (hr.next_stands hf').2
  · rw [flight?_goOn, if_neg hcc] at hf'
    -- Whoever throws an upload away is alone, so that it is of another account.
    have happart : f.throwsAway t.manager = true → f'.account ≠ f.account := by
      intro hthrown hacc
      exact hcc ((hr.care hthrown).1 c' f' hf' hacc).symm
    refine (hr.order.standing c' f' hf').keep (fun n hown => ?_) (fun _ hidle halone => ?_)
      fun k hk hclient => ?_
    · rw [manager_goOn]
      exact hr.keeps happart hown
    · -- Nobody else works on uploads of the account.
      have hacc : f.account ≠ f'.account := fun hacc => hcc (halone.1 c f hr.flight hacc)
      rw [manager_goOn]
      refine ⟨?_, ⟨fun c₁ f₁ hf₁ hacc₁ => ?_, fun k hk hka => ?_⟩, fun v hv hown => ?_⟩
      · cases hfind : m'.find? f'.account with
        | none => rfl
        | some k => cases hidle.symm.trans (hr.find_of_find hfind)
      · rw [flight?_goOn] at hf₁
        split at hf₁
        · have hnext := (hr.next_stands hf₁).1
          exact absurd (hnext.symm.trans hacc₁) hacc
        · exact halone.1 c₁ f₁ hf₁ hacc₁
      · rw [manager_goOn] at hk
        rcases hr.pending hk with hold | hnew
        · exact halone.2 k hold hka
        · exact hacc (hnew.symm.trans hka)
      · have hn : f'.upload ≠ f.upload := by
          intro hn
          rw [hn] at hv
          rw [← hown, ← hr.own, Option.some.inj (hr.known.symm.trans hv)] at hacc
          exact hacc rfl
        exact (hr.others _ hn).trans hv
    · have hne : c ≠ .watcher k.number := fun h => hcc (h.trans hclient.symm)
      rw [manager_goOn]
      exact hr.waits hk hne

end Traffic.Resumes

namespace Traffic.Orderly

variable {s : Settings} {t : Traffic} {c : Client} {f : Flight}

/-- What an operation does that goes on with care. -/
theorem resumes (ho : Orderly s t) (hf : t.flight? c = some f)
    (hcare : (Act.resume c).Careful t) :
    ∃ u, t.Resumes s c f u (f.proceed t.manager).1 (f.proceed t.manager).2 := by
  obtain ⟨u, hu, -⟩ := ho.known hf
  exact ⟨u, ho, hf, hu, hcare f hf, f.course hu, fun k hk => f.proceed_uploads t.manager hk⟩

/-- A client that goes on with care leaves everything in order. -/
theorem resume (ho : Orderly s t) (hn : Path.isPlainName s.sessionFile = true)
    (hcare : (Act.resume c).Careful t) : Orderly s ((Act.resume c).step t) := by
  cases hf : t.flight? c with
  | none =>
    simp only [Act.step, hf]
    exact ho
  | some f =>
    cases hlocked : t.isLocked f with
    | true =>
      simp only [Act.step, hf, hlocked, if_true]
      exact ho
    | false =>
      rw [Act.step_resume hf hlocked]
      obtain ⟨u, hr⟩ := ho.resumes hf hcare
      refine ⟨?_, ?_, fun b k v hv => ?_, fun c' f' => hr.standing⟩
      · rw [manager_goOn]
        exact hr.linked.1
      · rw [manager_goOn]
        exact hr.linked.2
      · rw [manager_goOn] at hv ⊢
        exact hr.ready hn hv

/-- Every act that is careful leaves everything in order. -/
theorem step (ho : Orderly s t) (hn : Path.isPlainName s.sessionFile = true) {act : Act}
    (hcare : act.Careful t) : Orderly s (act.step t) := by
  cases act with
  | ask i op => exact ho.ask hcare
  | notice k now => exact ho.notice k now
  | resume c => exact ho.resume hn hcare
  | elsewhere e => exact ho.elsewhere e

/-- At first everything is in order. -/
theorem start (s : Settings) (files : FileTree) (md : Metadata) :
    Orderly s (Traffic.start s files md) where
  linked := ⟨[], .start s files md⟩
  sited := .start s files md
  ready _ _ _ hu := nomatch hu.find
  standing _ _ hf := nomatch hf

/-- After acts that were careful everything is in order. -/
theorem after (ho : Orderly s t) (hn : Path.isPlainName s.sessionFile = true) {acts : List Act}
    (hcare : t.Careful acts) : Orderly s (t.after acts) := by
  induction acts generalizing t with
  | nil => exact ho
  | cons act acts ih => exact ih (ho.step hn hcare.1) hcare.2

end Traffic.Orderly

end Deployment
