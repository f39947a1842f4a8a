import Deployment.Proofs.Session.Durability
import Deployment.Proofs.Session.Interleaving

/-! # Operations in order

An operation works on the upload that it found, whatever became of it since then. What it takes
out of the table is found by the account, and what it deletes by the path, and there may be another
upload by then. That does no harm as long as uploads are thrown away with care: while nothing else
is under way for their account.

* **`Traffic.Careful`** — acts that throw uploads away with care.
* **`Traffic.Orderly`** — what holds of operations under way after such acts.
* **`Stands.keep`** — when the operation of a client stands as it stood.
* **`Orderly.ask`**, **`Orderly.notice`** — operations that begin keep it.
* **`Orderly.elsewhere`** — and so does whatever is no request. -/

namespace Deployment

open Stateful FileTree SessionManager

/-! ## Care -/

/-- Nobody but the client has anything under way for the account, and no deployment of the account
is waited for. -/
def Traffic.Alone (t : Traffic) (c : Client) (a : Account) : Prop :=
  (∀ c' f, t.flight? c' = some f → f.account = a → c' = c) ∧
    ∀ k ∈ t.manager.pending, k.job.account ≠ a

/-- An upload is thrown away only where nothing else is under way for its account, and no upload
begins while the archive of another of the account is still to be deleted. -/
def Act.Careful (t : Traffic) : Act → Prop
  | .ask _ (.register a _ _ _ _) =>
    ∀ c f, t.flight? c = some f → f.isDeleting = true → f.account ≠ a
  | .resume c => ∀ f, t.flight? c = some f → f.throwsAway t.manager = true → t.Alone c f.account
  | _ => True

/-- Every act is careful when its turn comes. -/
def Traffic.Careful (t : Traffic) : List Act → Prop
  | [] => True
  | act :: acts => act.Careful t ∧ (act.step t).Careful acts

/-- A run is careful exactly if its beginning is, and then the rest. -/
@[simp] theorem Traffic.careful_append {t : Traffic} {acts acts' : List Act} :
    t.Careful (acts ++ acts') ↔ t.Careful acts ∧ (t.after acts).Careful acts' := by
  induction acts generalizing t with
  | nil =>
    show t.Careful acts' ↔ True ∧ t.Careful acts'
    rw [true_and]
  | cons act acts ih =>
    show act.Careful t ∧ (act.step t).Careful (acts ++ acts') ↔
      (act.Careful t ∧ (act.step t).Careful acts) ∧ ((act.step t).after acts).Careful acts'
    rw [ih, and_assoc]

/-- What holds of all that is under way can be seen from the list of it. -/
theorem Traffic.forall_flight {t : Traffic} {P : Client → Flight → Prop} :
    (∀ e ∈ t.flights, ∀ f ∈ t.flight? e.1, P e.1 f) ↔ ∀ c f, t.flight? c = some f → P c f := by
  constructor
  · intro h c f hf
    have hc : Keyed.contains c t.flights := by
      rw [Keyed.contains, ← flight?, hf]
      rfl
    obtain ⟨e, he, rfl⟩ := List.mem_map.1 (Keyed.contains_iff_mem.1 hc)
    exact h e he f hf
  · intro h e _ f hf
    exact h e.1 f hf

/-- It can be decided whether a client is alone: the operations under way are listed. -/
instance (t : Traffic) (c : Client) (a : Account) : Decidable (t.Alone c a) :=
  decidable_of_iff
    ((∀ e ∈ t.flights, ∀ f ∈ t.flight? e.1, f.account = a → e.1 = c) ∧
      ∀ k ∈ t.manager.pending, k.job.account ≠ a)
    (and_congr (t.forall_flight (P := fun c' f => f.account = a → c' = c)) Iff.rfl)

/-- It can be decided whether an act is careful. -/
instance (t : Traffic) : (act : Act) → Decidable (act.Careful t)
  | .ask _ (.register a _ _ _ _) =>
    decidable_of_iff (∀ e ∈ t.flights, ∀ f ∈ t.flight? e.1, f.isDeleting = true → f.account ≠ a)
      (t.forall_flight (P := fun _ f => f.isDeleting = true → f.account ≠ a))
  | .ask _ (.append _ _) => .isTrue trivial
  | .ask _ (.finalize _ _) => .isTrue trivial
  | .notice _ _ => .isTrue trivial
  | .elsewhere _ => .isTrue trivial
  | .resume c => inferInstanceAs
    (Decidable (∀ f ∈ t.flight? c, f.throwsAway t.manager = true → t.Alone c f.account))

/-- Whether acts are careful can be found out by doing them. -/
def Traffic.decideCareful (t : Traffic) : (acts : List Act) → Decidable (t.Careful acts)
  | [] => .isTrue trivial
  | act :: acts => @instDecidableAnd _ _ _ ((act.step t).decideCareful acts)

/-- It can be decided whether a run is careful, act by act. -/
instance (t : Traffic) (acts : List Act) : Decidable (t.Careful acts) := t.decideCareful acts

/-! ## Order -/

/-- How the operation of a client stands. -/
inductive Traffic.Stands (t : Traffic) (c : Client) : Flight → Prop
  | preparing {a : Account} {n : Nat}
      (own : t.manager.find? a = some n ∨ t.manager.HasEnded a n) : Stands t c (.preparing a n)
  | appending {a : Account} {n : Nat} {bytes : List UInt8}
      (own : t.manager.find? a = some n ∨ t.manager.HasEnded a n) :
      Stands t c (.appending a n bytes)
  | finalizing {a : Account} {n : Nat} {now : Timestamp}
      (own : t.manager.find? a = some n ∨ t.manager.HasEnded a n) :
      Stands t c (.finalizing a n now)
  | deleting {a : Account} {n : Nat} {u : Upload} (idle : t.manager.find? a = none)
      (alone : t.Alone c a) (known : t.manager.uploads[n]? = some u) (own : u.account = a) :
      Stands t c (.deleting a n)
  | completing {k : Ticket} {n : Nat} {now : Timestamp} (client : c = .watcher k.number)
      (waits : k ∈ t.manager.pending) (current : t.manager.find? k.job.account = some n) :
      Stands t c (.completing k n now)

/-- An operation stands as it stood where its account keeps the upload, where an archive that it
deletes is still of an account with nothing else, and where a job whose end it notes is still
waited for. -/
theorem Traffic.Stands.keep {t t' : Traffic} {c : Client} {f : Flight} (hst : t.Stands c f)
    (hown : ∀ n, t.manager.find? f.account = some n ∨ t.manager.HasEnded f.account n →
      t'.manager.find? f.account = some n ∨ t'.manager.HasEnded f.account n)
    (hdeleting : f.isDeleting = true → t.manager.find? f.account = none → t.Alone c f.account →
      t'.manager.find? f.account = none ∧ t'.Alone c f.account ∧
        ∀ u, t.manager.uploads[f.upload]? = some u → u.account = f.account →
          t'.manager.uploads[f.upload]? = some u)
    (hwaits : ∀ k ∈ t.manager.pending, c = .watcher k.number →
      k ∈ t'.manager.pending ∧
        t'.manager.find? k.job.account = t.manager.find? k.job.account) : t'.Stands c f := by
  cases hst with
  | preparing own => exact .preparing (hown _ own)
  | appending own => exact .appending (hown _ own)
  | finalizing own => exact .finalizing (hown _ own)
  | deleting idle alone known own =>
    obtain ⟨hidle, halone, hknown⟩ := hdeleting rfl idle alone
    exact .deleting hidle halone (hknown _ known own) own
  | completing client waits current =>
    obtain ⟨hpending, hfind⟩ := hwaits _ waits client
    exact .completing client hpending (hfind.trans current)

/-- What holds of operations under way after acts that were careful. -/
structure Traffic.Orderly (s : Settings) (t : Traffic) : Prop where
  linked : ∃ h, Linked h t.manager
  sited : Sited s t.manager
  ready : ∀ a n u, t.manager.InProgress a n u →
    (t.manager.plant.files.isDirectory (s.accountDirectory a) = true ∨
      ∃ c, t.flight? c = some (.preparing a n)) ∧ ∃ given, u.Given t.manager.plant.files given
  standing : ∀ c f, t.flight? c = some f → t.Stands c f

namespace Traffic.Orderly

variable {s : Settings} {t : Traffic} {c : Client} {f : Flight} {u : Upload} {m' : SessionManager}

/-- An operation works on an upload of its account. -/
theorem known (ho : Orderly s t) (hf : t.flight? c = some f) :
    ∃ u, t.manager.uploads[f.upload]? = some u ∧ u.account = f.account := by
  obtain ⟨h, hl⟩ := ho.linked
  have hlive : ∀ {a n}, t.manager.find? a = some n →
      ∃ u, t.manager.uploads[n]? = some u ∧ u.account = a := by
    intro a n hfind
    obtain ⟨u, hu⟩ := hl.known hfind
    exact ⟨u, hu.known, hl.own hu⟩
  -- Live or ended, the upload of an operation is one its account has had.
  have hown : ∀ {a n}, t.manager.find? a = some n ∨ t.manager.HasEnded a n →
      ∃ u, t.manager.uploads[n]? = some u ∧ u.account = a := by
    rintro a n (hfind | ⟨u, hu, ha, -⟩)
    · exact hlive hfind
    · exact ⟨u, hu, ha⟩
  cases ho.standing c f hf with
  | preparing own => exact hown own
  | appending own => exact hown own
  | finalizing own => exact hown own
  | deleting idle alone known own => exact ⟨_, known, own⟩
  | completing client waits current => exact hlive current

/-- An upload that an operation works on is in progress, if it has not ended and is not thrown
away. -/
theorem current (ho : Orderly s t) (hf : t.flight? c = some f)
    (hu : t.manager.uploads[f.upload]? = some u) (hd : f.isDeleting = false)
    (hs : u.status.isTerminal = false) : t.manager.InProgress f.account f.upload u := by
  -- An ended upload has a terminal status, so an operation on one that has none is the current one.
  have hown : ∀ {a n}, t.manager.uploads[n]? = some u →
      t.manager.find? a = some n ∨ t.manager.HasEnded a n → t.manager.InProgress a n u := by
    rintro a n hu (hfind | ⟨v, hv, -, ht⟩)
    · exact ⟨hfind, hu⟩
    · rw [Option.some.inj (hv.symm.trans hu), hs] at ht
      cases ht
  cases ho.standing c f hf with
  | preparing own => exact hown hu own
  | appending own => exact hown hu own
  | finalizing own => exact hown hu own
  | deleting => cases hd
  | completing client waits current => exact ⟨current, hu⟩

/-- A client that has nothing under way begins an operation on the upload of an account, which it
has found or entered. -/
theorem begun (ho : Orderly s t) (hfree : t.flight? c = none) (hl : ∃ h, Linked h m')
    (hs : Sited s m') (hfiles : m'.plant.files = t.manager.plant.files)
    (hpending : m'.pending = t.manager.pending)
    (hknown : ∀ (k : Nat) (v : Upload), t.manager.uploads[k]? = some v →
      m'.uploads[k]? = some v)
    (hfind : ∀ b k, t.manager.find? b = some k → m'.find? b = some k)
    (hidle : ∀ b, b ≠ f.account → m'.find? b = t.manager.find? b)
    (hnew : ∀ b k v, m'.InProgress b k v →
      t.manager.InProgress b k v ∨ f = .preparing b k ∧ v.writer = none)
    (hnot : ∀ c' n, t.flight? c' ≠ some (.deleting f.account n))
    (hstands : (t.goOn c m' (some f)).Stands c f) : Orderly s (t.goOn c m' (some f)) := by
  -- whoever has something under way already is somebody else
  have hold : ∀ {c' f'}, t.flight? c' = some f' → c ≠ c' := by
    rintro c' f' hf' rfl
    cases hfree.symm.trans hf'
  refine ⟨?_, ?_, fun b k v hv => ?_, fun c' f' hf' => ?_⟩
  · rw [manager_goOn]
    exact hl
  · rw [manager_goOn]
    exact hs
  · rw [manager_goOn] at hv ⊢
    rw [hfiles]
    rcases hnew b k v hv with hv | ⟨rfl, hw⟩
    · obtain ⟨hdir, hgiven⟩ := ho.ready b k v hv
      refine ⟨hdir.imp_right ?_, hgiven⟩
      rintro ⟨c', hc'⟩
      refine ⟨c', ?_⟩
      rw [flight?_goOn, if_neg (hold hc')]
      exact hc'
    · refine ⟨.inr ⟨c, ?_⟩, [], ?_⟩
      · rw [flight?_goOn, if_pos rfl]
      · rw [Upload.Given, hw]
  · rw [flight?_goOn] at hf'
    split at hf'
    next hcc =>
      subst hcc
      cases hf'
      exact hstands
    next =>
      refine (ho.standing c' f' hf').keep (fun n hown => ?_) (fun hdel hidle' halone => ?_)
        fun k hk _ => ?_
      · rw [manager_goOn]
        rcases hown with hlive | ⟨v, hv, ha, ht⟩
        · exact .inl (hfind _ n hlive)
        · exact .inr ⟨v, hknown n v hv, ha, ht⟩
      · have hacc : f'.account ≠ f.account := by
          cases f' with
          | deleting a n =>
            rintro rfl
            exact hnot c' n hf'
          | _ => cases hdel
        rw [manager_goOn]
        refine ⟨(hidle _ hacc).trans hidle', ⟨fun c₁ f₁ hf₁ hacc₁ => ?_, ?_⟩,
          fun v hv _ => hknown _ v hv⟩
        · -- the new operation is of another account, so that the deletion stays alone
          rw [flight?_goOn] at hf₁
          split at hf₁
          · cases hf₁
            exact absurd hacc₁.symm hacc
          · exact halone.1 c₁ f₁ hf₁ hacc₁
        · rw [manager_goOn, hpending]
          exact halone.2
      · rw [manager_goOn, hpending]
        obtain ⟨h, hl'⟩ := ho.linked
        obtain ⟨n, v, hcur, -⟩ := hl'.of_pending hk
        exact ⟨hk, (hfind _ n hcur.find).trans hcur.find.symm⟩

/-- A client that has found an upload in progress may work on it. -/
theorem begun_found (ho : Orderly s t) (hfree : t.flight? c = none)
    (hlive : t.manager.find? f.account = some f.upload)
    (hstands : (t.goOn c t.manager (some f)).Stands c f) :
    Orderly s (t.goOn c t.manager (some f)) := by
  refine ho.begun hfree ho.linked ho.sited rfl rfl (fun _ _ hv => hv) (fun _ _ hk => hk)
    (fun _ _ => rfl) (fun _ _ _ hv => .inl hv) (fun c' n hc' => ?_) hstands
  cases ho.standing c' _ hc' with
  | deleting idle => exact nomatch idle.symm.trans hlive

/-- A registration enters an upload. -/
theorem begun_register (ho : Orderly s t) (hfree : t.flight? c = none) {a : Account}
    {info : ResourceInfo} {requester : String} {id : Ulid} {now : Timestamp}
    (hvalid : a.isValid = true) (hplain : Path.isPlainName info.fileName = true)
    (hreserved : t.manager.settings.isReserved info.fileName = false)
    (hidle : t.manager.find? a = none)
    (hnot : ∀ c' n, t.flight? c' ≠ some (.deleting a n)) :
    Orderly s (t.goOn c (begin a (t.manager.newUpload a info requester id now) t.manager)
      (some (.preparing a t.manager.uploads.length))) := by
  obtain ⟨h, hl⟩ := ho.linked
  have ⟨hset, hroot, hfile, hplaced⟩ := ho.sited
  have hfind : ∀ b, (begin a (t.manager.newUpload a info requester id now) t.manager).find? b =
      if a = b then some t.manager.uploads.length else t.manager.find? b :=
    fun b => Linked.find?_begin t.manager a b _
  have hself := (hfind a).trans (if_pos rfl)
  have hother : ∀ b, a ≠ b → _ = t.manager.find? b := fun b hb => (hfind b).trans (if_neg hb)
  refine ho.begun hfree ⟨h, ?_⟩ ⟨hset, hroot, hfile, forall_begin hplaced ?_⟩ rfl rfl
    (fun k v hv => known_begin hv _) (fun b k hk => ?_) (fun b hb => hother b (Ne.symm hb))
    (fun b k v hv => ?_) hnot ?_
  · -- an account without an upload waits for no job, so that the new one is open without jobs
    refine hl.keep rfl (hl.accounts_of_begin hother rfl ?_) rfl (.refl _)
    exact .open t.manager.uploads.length _ ⟨hself, List.getElem?_concat_length⟩ rfl (.inl rfl)
      (hl.jobsOf_of_idle hidle)
  · exact ⟨hvalid, _, hplain, hset ▸ hreserved, by rw [← hset]; rfl⟩
  · rw [hother b, hk]
    rintro rfl
    exact nomatch hidle.symm.trans hk
  · by_cases hab : a = b
    · subst hab
      obtain rfl : t.manager.uploads.length = k := Option.some.inj (hself.symm.trans hv.find)
      have hv' := List.getElem?_concat_length.symm.trans hv.known
      exact .inr ⟨rfl, by rw [← Option.some.inj hv']; rfl⟩
    · obtain ⟨w, hw⟩ := hl.known ((hother b hab).symm.trans hv.find)
      rw [Option.some.inj (hv.known.symm.trans (known_begin hw.known _))]
      exact .inl hw
  · refine .preparing (.inl ?_)
    rw [manager_goOn]
    exact hself

/-- A caller that asks for something leaves everything in order. -/
theorem ask (ho : Orderly s t) {i : Nat} {op : Operation} (hcare : (Act.ask i op).Careful t) :
    Orderly s ((Act.ask i op).step t) := by
  cases hfree : t.flight? (.caller i) with
  | some f =>
    simp only [Act.step, hfree]
    exact ho
  | none =>
    simp only [Act.step, hfree]
    -- A session may begin only when no archive of the account is still to be deleted, which is what
    -- care says.
    cases op with
    | register a info requester id now =>
      simp only [beginOperation]
      rcases enter_cases t.manager a info requester id now with ⟨f, -, h⟩ |
        ⟨hvalid, hplain, hreserved, hidle, h⟩
      · simp only [h]
        exact ho
      · simp only [h]
        exact ho.begun_register hfree hvalid hplain hreserved hidle
          fun c' n hc' => hcare c' _ hc' rfl rfl
    | append a bytes =>
      simp only [beginOperation]
      cases hfind : t.manager.find? a with
      | none => exact ho
      | some n =>
        refine ho.begun_found hfree hfind (.appending (.inl ?_))
        rw [manager_goOn]
        exact hfind
    | finalize a now =>
      simp only [beginOperation]
      cases hfind : t.manager.find? a with
      | none => exact ho
      | some n =>
        refine ho.begun_found hfree hfind (.finalizing (.inl ?_))
        rw [manager_goOn]
        exact hfind

/-- Whoever hears of the end of a job leaves everything in order. -/
theorem notice (ho : Orderly s t) (k : Ticket) (now : Timestamp) :
    Orderly s ((Act.notice k now).step t) := by
  cases hfree : t.flight? (.watcher k.number) with
  | some f =>
    simp only [Act.step, hfree]
    exact ho
  | none =>
    simp only [Act.step, hfree]
    split
    -- A ticket that is pending has its upload in progress, so there is always one to complete.
    next hk =>
      obtain ⟨h, hl⟩ := ho.linked
      obtain ⟨n, u, hcur, -⟩ := hl.of_pending hk.1
      simp only [beginNote, hcur.find]
      refine ho.begun_found hfree hcur.find (.completing rfl ?_ ?_)
      · rw [manager_goOn]
        exact hk.1
      · rw [manager_goOn]
        exact hcur.find
    next => exact ho

end Traffic.Orderly

/-- What is no request leaves uploads, jobs that are waited for and files alone. -/
theorem Effect.apart {m m' : SessionManager} {e : Event} {notes : List Note}
    (he : Effect m e m' notes) (ha : e.isApart = true) :
    m'.find? = m.find? ∧ m'.uploads = m.uploads ∧ m'.pending = m.pending ∧
      m'.plant.files = m.plant.files := by
  cases he with
  | nothing => exact ⟨rfl, rfl, rfl, rfl⟩
  | worked => exact ⟨rfl, rfl, rfl, rfl⟩
  | outage => exact ⟨rfl, rfl, rfl, rfl⟩
  | _ => cases ha

namespace Traffic.Orderly

variable {s : Settings} {t : Traffic}

/-- Whatever is no request leaves everything in order. -/
theorem elsewhere (ho : Orderly s t) (e : Event) : Orderly s ((Act.elsewhere e).step t) := by
  simp only [Act.step]
  split
  next ha =>
    obtain ⟨h, hl⟩ := ho.linked
    have he := effect e t.manager
    obtain ⟨hfind, hup, hpending, hfiles⟩ := he.apart ha
    -- Nothing that happens apart from the sessions touches the table, so each operation stands as
    -- it did.
    have hprogress : ∀ {a n u}, (e.step t.manager).InProgress a n u →
        t.manager.InProgress a n u := by
      intro a n u hu
      exact ⟨hfind ▸ hu.find, hup ▸ hu.known⟩
    refine ⟨⟨_, hl.step he⟩, ho.sited.step hl he, fun a n u hu => ?_, fun c f hf => ?_⟩
    · show ((e.step t.manager).plant.files.isDirectory _ = true ∨ _) ∧ _
      rw [hfiles]
      exact ho.ready a n u (hprogress hu)
    · refine (ho.standing c f hf).keep (fun n hown => ?_) (fun _ hidle halone => ?_)
        fun k hk _ => ⟨hpending ▸ hk, congrFun hfind _⟩
      · show (e.step t.manager).find? _ = _ ∨ (e.step t.manager).HasEnded _ _
        rwa [HasEnded, hfind, hup]
      · refine ⟨(congrFun hfind _).trans hidle, ⟨halone.1, ?_⟩, fun v hv _ => hup ▸ hv⟩
        intro k hk
        exact halone.2 k (hpending ▸ hk)
  next => exact ho

end Traffic.Orderly

end Deployment
