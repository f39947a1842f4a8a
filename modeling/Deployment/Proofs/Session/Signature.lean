import Deployment.Proofs.Deploy.Ledger
import Deployment.Proofs.Deploy.Looks
import Deployment.Proofs.Session.Desk

/-! # Who signed for a deployment

A deployment has one requester, but its upload may be begun with one token and ended with another.
The deployment looks at datasets as who began the upload; who ended it does not count.

* **`Desk.Shown`** — the tokens that are kept are those of requests that were made.
* **`Desk.Signed`** — what they tell of uploads and jobs.
* **`Desk.Signed.finish_looks`**, **`Desk.Signed.lookups_step`** — who looks at datasets, and when.
* **`looks_as_who_began`** — what follows for deployments, after every run. -/

namespace Deployment

open SessionManager

/-! ## The tokens that are kept -/

/-- The tokens that are kept are those of requests that were made for the accounts of the uploads:
uploads were begun by registrations, and ended by requests for their deployment. -/
structure Desk.Shown (turns : List Turn) (d : Desk) : Prop where
  began : ∀ n token, d.began[n]? = some token → ∃ i info id now,
    Turn.call i (.init token info id now) ∈ turns ∧ d.manager.HasUpload info.account n
  ended : ∀ e ∈ d.ended, ∃ i r now,
    Turn.call i (.deploy e.2 r now) ∈ turns ∧ d.manager.HasUpload r.account e.1
  ending : ∀ c a n now, d.traffic.flight? c = some (.finalizing a n now) → ∃ i r now,
    Turn.call i (.deploy (d.signed c) r now) ∈ turns ∧ d.manager.HasUpload r.account n

/-- What the tokens tell of uploads and jobs. -/
structure Desk.Signed (d : Desk) : Prop where
  /-- The requester of an upload is who began it. -/
  requesters : d.manager.wanted.map (·.requester) = d.began.map Token.principal
  numbered : d.ended.length = d.manager.plant.pool.stats.submitted
  /-- A job is that of an upload that somebody has ended. -/
  jobs : ∀ k ∈ d.manager.plant.pool.unfinished, ∃ e, d.ended[k.number]? = some e ∧
    d.manager.wanted[e.1]? = some k.job
  shut : ∀ e ∈ d.ended, d.manager.IsShut e.1
  once : (d.ended.map (·.1)).Nodup
  live : ∀ a n, d.manager.find? a = some n → d.manager.HasUpload a n
  flights : ∀ c f, d.traffic.flight? c = some f → f.upload < d.manager.wanted.length

/-- As many uploads were begun as there are. -/
theorem Desk.Signed.began_length {d : Desk} (h : d.Signed) :
    d.began.length = d.manager.uploads.length := by
  have hlength := congrArg List.length h.requesters
  simpa only [wanted, List.length_map] using hlength.symm

namespace Desk.Shown

variable {d d' : Desk} {turns : List Turn} {turn : Turn}

/-- At first no token was shown. -/
theorem start (s : Settings) (files : FileTree) (md : Metadata) :
    (Desk.start s files md).Shown [] where
  began _ _ h := nomatch h
  ended _ h := nomatch h
  ending _ _ _ _ h := nomatch h

/-- More was done, the uploads are kept, and no other upload is being ended. -/
theorem moved (h : d.Shown turns) (turn : Turn) {t : Traffic}
    (hfor : ∀ {n a}, d.manager.HasUpload a n → t.manager.HasUpload a n)
    (hold : ∀ c a n now, t.flight? c = some (.finalizing a n now) →
      d.traffic.flight? c = some (.finalizing a n now)) : (d.moved t).Shown (turns ++ [turn]) where
  began n token ht := by
    obtain ⟨i, info, id, now, hin, hn⟩ := h.began n token ht
    exact ⟨i, info, id, now, List.mem_append_left _ hin, hfor hn⟩
  ended e he := by
    obtain ⟨i, r, now, hin, hn⟩ := h.ended e he
    exact ⟨i, r, now, List.mem_append_left _ hin, hfor hn⟩
  ending c a n now hf := by
    obtain ⟨i, r, now, hin, hn⟩ := h.ending c a n now (hold c a n now hf)
    exact ⟨i, r, now, List.mem_append_left _ hin, hfor hn⟩

/-- A client goes on, but not to end an upload. -/
theorem goOn (h : d.Shown turns) (turn : Turn) (c : Client) {m : SessionManager}
    (hfor : ∀ {n a}, d.manager.HasUpload a n → m.HasUpload a n)
    {next : Option Flight} (hnext : ∀ a n now, next ≠ some (.finalizing a n now)) :
    (d.moved (d.traffic.goOn c m next)).Shown (turns ++ [turn]) := by
  refine h.moved turn (fun hn => ?_) fun c' a n now hf => ?_
  · rw [Traffic.manager_goOn]
    exact hfor hn
  · rw [Traffic.flight?_goOn] at hf
    split at hf
    · exact absurd hf (hnext a n now)
    · exact hf

/-- A caller shows a token with a request, and ends an upload only by asking for its deployment. -/
theorem shown (h : d.Shown turns) (i : Nat) (c : Call) {t : Traffic}
    (hfor : ∀ {n a}, d.manager.HasUpload a n → t.manager.HasUpload a n)
    (hold : ∀ c', c' ≠ .caller i → t.flight? c' = d.traffic.flight? c')
    (hends : ∀ a n now, t.flight? (.caller i) = some (.finalizing a n now) →
      ∃ token r, c = .deploy token r now ∧ t.manager.HasUpload r.account n) :
    (d.shown i c.token t).Shown (turns ++ [.call i c]) where
  began n token ht := by
    obtain ⟨j, info, id, now, hin, hn⟩ := h.began n token ht
    exact ⟨j, info, id, now, List.mem_append_left _ hin, hfor hn⟩
  ended e he := by
    obtain ⟨j, r, now, hin, hn⟩ := h.ended e he
    exact ⟨j, r, now, List.mem_append_left _ hin, hfor hn⟩
  ending c' a n now hf := by
    -- The entry just made is for the call of this turn; every other one was shown before.
    by_cases hc : c' = .caller i
    · subst hc
      obtain ⟨token, r, rfl, hn⟩ := hends a n now hf
      refine ⟨i, r, now, ?_, hn⟩
      simp only [Desk.shown, Function.update_self]
      exact List.mem_append_right _ (List.mem_singleton_self _)
    · obtain ⟨j, r, now, hin, hn⟩ := h.ending c' a n now ((hold c' hc).symm.trans hf)
      refine ⟨j, r, now, ?_, hfor hn⟩
      simp only [Desk.shown, Function.update_of_ne hc]
      exact List.mem_append_left _ hin

/-- A caller begins an operation with the token of its request. -/
theorem begun (h : d.Shown turns) (i : Nat) (c : Call) {m : SessionManager} {f : Flight}
    (hfor : ∀ {n a}, d.manager.HasUpload a n → m.HasUpload a n)
    (hends : ∀ a n now, f = .finalizing a n now →
      ∃ token r, c = .deploy token r now ∧ m.HasUpload r.account n) :
    (d.shown i c.token (d.traffic.goOn (.caller i) m (some f))).Shown (turns ++ [.call i c]) := by
  refine h.shown i c (fun hn => ?_) (fun c' hc => ?_) fun a n now hf => ?_
  · rw [Traffic.manager_goOn]
    exact hfor hn
  · rw [Traffic.flight?_goOn, if_neg (Ne.symm hc)]
  · rw [Traffic.flight?_goOn, if_pos rfl] at hf
    rw [Traffic.manager_goOn]
    exact hends a n now (Option.some.inj hf)

/-- Every turn keeps only tokens that were shown. -/
theorem step (h : d.Shown turns) (hs : d.Signed) (hc : turn.Course d d') :
    d'.Shown (turns ++ [turn]) := by
  have hsame : d.Shown (turns ++ [turn]) := h.moved turn id fun _ _ _ _ => id
  cases hc with
  | nothing => exact hsame
  | @refused i c free =>
    exact h.shown i c id (fun _ _ => rfl) fun a n now hf => nomatch free.symm.trans hf
  | @registered i token info id now u new =>
    have hfor : ∀ {n a}, d.manager.HasUpload a n →
        (SessionManager.begin info.account u d.manager).HasUpload a n :=
      fun ⟨v, hv, ha⟩ => ⟨v, known_begin hv u, ha⟩
    have hbegun := h.begun i (.init token info id now) hfor
      (f := .preparing info.account d.manager.uploads.length) nofun
    refine ⟨fun n τ hτ => ?_, hbegun.ended, hbegun.ending⟩
    replace hτ : (d.began ++ [token])[n]? = some τ := hτ
    rw [List.getElem?_append] at hτ
    split at hτ
    · exact hbegun.began n τ hτ
    · -- the token is the last one, and so is the upload
      rw [List.getElem?_singleton] at hτ
      split at hτ
      next hge hlast =>
        obtain rfl := Option.some.inj hτ
        obtain rfl : n = d.manager.uploads.length := by
          rw [← hs.began_length]
          omega
        refine ⟨i, info, id, now, List.mem_append_right _ (List.mem_singleton_self _), ?_⟩
        show HasUpload (Traffic.manager (d.traffic.goOn _ (d.manager.begin info.account u) _)) _ _
        rw [Traffic.manager_goOn]
        exact ⟨u, List.getElem?_concat_length, new ▸ rfl⟩
      next => cases hτ
  | @found i c a f current ends =>
    refine h.begun i c id fun b n now hf => ?_
    obtain ⟨token, r, hcall, rfl⟩ := ends b n now hf
    subst hf
    exact ⟨token, r, hcall, hs.live _ _ current⟩
  | noticed => exact h.goOn _ _ id nofun
  | forgotten => exact h.moved _ id fun _ _ _ _ => id
  -- An operation that goes on stays with its upload, so it stays with one that is known.
  | @resumed c f m next underWay keeps works metadata left =>
    refine h.goOn _ c keeps.hasUpload fun a n now hnext => ?_
    cases (left _ hnext).1
  | @submitted c a n now u number m underWay known keeps =>
    have hgone : (d.moved (d.traffic.goOn c m none)).Shown (turns ++ [.resume c]) :=
      h.goOn (.resume c) c keeps.hasUpload nofun
    refine ⟨hgone.began, fun e he => ?_, hgone.ending⟩
    rcases List.mem_append.1 he with he | he
    · exact hgone.ended e he
    · -- whoever ended the upload had asked for its deployment
      obtain rfl := List.mem_singleton.1 he
      obtain ⟨i, r, now, hin, hn⟩ := hsame.ending c a n now underWay
      refine ⟨i, r, now, hin, ?_⟩
      show (d.traffic.goOn c m none).manager.HasUpload r.account n
      rw [Traffic.manager_goOn]
      exact keeps.hasUpload hn
  | apart isApart =>
    exact h.moved _ (Event.keeps_of_isApart isApart d.manager).1.hasUpload fun _ _ _ _ => id

end Desk.Shown

/-! ## What the tokens tell -/

namespace Desk.Signed

variable {d d' : Desk} {turn : Turn}

/-- At first there are neither uploads nor tokens. -/
theorem start (s : Settings) (files : FileTree) (md : Metadata) :
    (Desk.start s files md).Signed where
  requesters := rfl
  numbered := rfl
  jobs _ hk := nomatch hk
  shut _ he := nomatch he
  once := List.nodup_nil
  live _ _ h := nomatch h
  flights _ _ h := nomatch h

/-- An operation is for an upload that there is. -/
theorem known (h : d.Signed) (c : Client) (f : Flight) (hf : d.traffic.flight? c = some f) :
    ∃ u, d.manager.uploads[f.upload]? = some u := by
  have hlt := h.flights c f hf
  rw [wanted, List.length_map] at hlt
  exact ⟨_, List.getElem?_eq_getElem hlt⟩

/-- Where uploads are kept and workers go on, the tokens tell what they told. -/
theorem keep (h : d.Signed) (hkeeps : d.manager.Keeps d'.manager)
    (hworks : d.manager.plant.pool.Works d'.manager.plant.pool)
    (hflights : ∀ c f, d'.traffic.flight? c = some f → f.upload < d.manager.wanted.length)
    (hbegan : d'.began = d.began) (hended : d'.ended = d.ended) : d'.Signed where
  requesters := by rw [hkeeps.wanted, hbegan, h.requesters]
  numbered := by rw [hended, hworks.submitted, h.numbered]
  jobs k hk := by
    rw [hended, hkeeps.wanted]
    exact h.jobs k (hworks.unfinished.subset hk)
  shut e he := hkeeps.shut _ (h.shut e (hended ▸ he))
  once := hended ▸ h.once
  live a n hn := hkeeps.hasUpload (h.live a n (hkeeps.live a n hn))
  flights c f hf := by
    rw [hkeeps.wanted]
    exact hflights c f hf

/-- What is under way after a client has gone on is for uploads that there are. -/
theorem flights_goOn (h : d.Signed) (c : Client) (m : SessionManager) {next : Option Flight}
    (hnext : ∀ g, next = some g → g.upload < d.manager.wanted.length) (c' : Client) (f : Flight)
    (hf : (d.traffic.goOn c m next).flight? c' = some f) : f.upload < d.manager.wanted.length := by
  rw [Traffic.flight?_goOn] at hf
  split at hf
  · exact hnext f hf
  · exact h.flights c' f hf

/-- A client that has found an upload begins to work on it. -/
theorem found (h : d.Signed) (c : Client) {a : Account} {f : Flight}
    (hfind : d.manager.find? a = some f.upload)
    (htraffic : d'.traffic = d.traffic.goOn c d.manager (some f)) (hbegan : d'.began = d.began)
    (hended : d'.ended = d.ended) : d'.Signed := by
  have hmanager : d'.manager = d.manager := by
    rw [manager, htraffic, Traffic.manager_goOn]
  refine h.keep (hmanager ▸ .refl _) (hmanager ▸ .refl _) (fun c' g hg => ?_) hbegan hended
  refine h.flights_goOn c d.manager (fun g hg => ?_) c' g (htraffic ▸ hg)
  cases hg
  exact (h.live a _ hfind).lt

/-- A caller that begins an upload is its requester. -/
theorem entered (h : d.Signed) (i : Nat) (token : Token) {a : Account} {u : Upload}
    (hwho : u.requester = token.principal) (hfor : u.account = a) :
    (d.entered i token (d.traffic.goOn (.caller i) (SessionManager.begin a u d.manager)
      (some (.preparing a d.manager.uploads.length)))).Signed := by
  generalize hd' : d.entered i token (d.traffic.goOn (.caller i)
    (SessionManager.begin a u d.manager) (some (.preparing a d.manager.uploads.length))) = d'
  have hmanager : d'.manager = SessionManager.begin a u d.manager := by
    rw [← hd']
    exact Traffic.manager_goOn ..
  have hbegan : d'.began = d.began ++ [token] := hd' ▸ rfl
  have hended : d'.ended = d.ended := hd' ▸ rfl
  have hwanted : d'.manager.wanted = d.manager.wanted ++ [u.job] := by
    rw [hmanager]
    exact List.map_append
  have hlength : d'.manager.wanted.length = d.manager.wanted.length + 1 := by
    rw [hwanted, List.length_append, List.length_singleton]
  have hnew : d.manager.uploads.length < d'.manager.wanted.length := by
    rw [hlength, wanted, List.length_map]
    exact Nat.lt_succ_self _
  -- One goal per field: only the lists that grow, and the new session, have something to prove.
  refine ⟨?_, ?_, fun k hk => ?_, fun e he => ?_, ?_, fun b n hn => ?_, fun c f hf => ?_⟩
  · rw [hwanted, hbegan, List.map_append, List.map_append, h.requesters]
    exact congrArg (_ ++ [·]) hwho
  · rw [hended, hmanager]
    exact h.numbered
  · rw [hmanager] at hk
    obtain ⟨e, he, hjob⟩ := h.jobs k hk
    rw [hended, hwanted]
    exact ⟨e, he, (List.getElem?_append_left (List.getElem?_eq_some_iff.1 hjob).1).trans hjob⟩
  · obtain ⟨v, hv, hs⟩ := h.shut e (hended ▸ he)
    rw [hmanager]
    exact ⟨v, known_begin hv u, hs⟩
  · exact hended ▸ h.once
  · rw [hmanager] at hn ⊢
    rw [Linked.find?_begin] at hn
    split at hn
    next hb =>
      obtain rfl := Option.some.inj hn
      exact ⟨u, List.getElem?_concat_length, hfor.trans hb⟩
    next =>
      obtain ⟨v, hv, ha⟩ := h.live b n hn
      exact ⟨v, known_begin hv u, ha⟩
  · rw [← hd'] at hf
    replace hf := (Traffic.flight?_goOn ..).symm.trans hf
    split at hf
    · cases hf
      exact hnew
    · exact hlength ▸ Nat.lt_succ_of_lt (h.flights c f hf)

/-- The job of an upload is accepted, which somebody has ended. -/
theorem closed (h : d.Signed) {c : Client} {n number : Nat} {u : Upload} {m : SessionManager}
    (known : d.manager.uploads[n]? = some u) (keeps : d.manager.Keeps m)
    (taken : Pool.submit u.job d.manager.plant.pool = .ok number m.plant.pool)
    (opened : ¬ d.manager.IsShut n) (shut : m.IsShut n) :
    (d.closed c n (d.traffic.goOn c m none)).Signed := by
  generalize hd' : d.closed c n (d.traffic.goOn c m none) = d'
  have hmanager : d'.manager = m := by
    rw [← hd']
    exact Traffic.manager_goOn ..
  have hended : d'.ended = d.ended ++ [(n, d.signed c)] := hd' ▸ rfl
  have hbegan : d'.began = d.began := hd' ▸ rfl
  obtain ⟨hnumber, hqueue, hrunning, -, hcount⟩ := Pool.submit_ok taken
  have hlast : d.ended.length = number := h.numbered.trans hnumber.symm
  refine ⟨?_, ?_, fun k hk => ?_, fun e he => ?_, ?_, fun b k hk => ?_, fun c' g hg => ?_⟩
  · rw [hmanager, keeps.wanted, hbegan, h.requesters]
  · rw [hended, hmanager, hcount, ← hlast, List.length_append, List.length_singleton]
  · have hjobs : k ∈ d.manager.plant.pool.unfinished ∨ k = ⟨number, u.job⟩ := by
      simp only [hmanager, Pool.unfinished, hqueue, hrunning, List.mem_append,
        List.mem_singleton] at hk ⊢
      tauto
    rw [hended, hmanager, keeps.wanted]
    rcases hjobs with hk | rfl
    · obtain ⟨e, he, hjob⟩ := h.jobs k hk
      exact ⟨e, (List.getElem?_append_left (List.getElem?_eq_some_iff.1 he).1).trans he, hjob⟩
    · exact ⟨_, hlast ▸ List.getElem?_concat_length, wanted_of_known known⟩
  · rw [hended] at he
    rw [hmanager]
    rcases List.mem_append.1 he with he | he
    · exact keeps.shut _ (h.shut e he)
    · obtain rfl := List.mem_singleton.1 he
      exact shut
  · -- the upload was not shut, so that nobody had ended it
    rw [hended, List.map_append, List.nodup_append]
    refine ⟨h.once, by simp, fun k hk n' hn' => ?_⟩
    obtain ⟨e, he, rfl⟩ := List.mem_map.1 hk
    obtain rfl : n' = n := List.mem_singleton.1 hn'
    intro heq
    exact opened (heq ▸ h.shut e he)
  · rw [hmanager] at hk ⊢
    exact keeps.hasUpload (h.live b k (keeps.live b k hk))
  · rw [hmanager, keeps.wanted]
    rw [← hd'] at hg
    refine h.flights_goOn c m (fun g hg => ?_) c' g hg
    cases hg

/-- Every turn keeps what the tokens tell. -/
theorem step (h : d.Signed) (hc : turn.Course d d') : d'.Signed := by
  cases hc with
  | nothing => exact h
  | refused => exact h.keep (.refl _) (.refl _) h.flights rfl rfl
  | registered new => exact h.entered _ _ (new ▸ rfl) (new ▸ rfl)
  | found current => exact h.found _ current rfl rfl rfl
  | noticed current => exact h.found _ current rfl rfl rfl
  | forgotten => exact h.keep ((Keeps.refl _).congr rfl rfl) (.refl _) h.flights rfl rfl
  | @resumed c f m next underWay keeps works metadata left =>
    have hmanager : (d.moved (d.traffic.goOn c m next)).manager = m := Traffic.manager_goOn ..
    refine h.keep (by rwa [hmanager]) (by rwa [hmanager]) ?_ rfl rfl
    refine h.flights_goOn c m fun g hg => ?_
    rw [(left g hg).2]
    exact h.flights c f underWay
  | submitted underWay known keeps taken metadata opened shut =>
    exact h.closed known keeps taken opened shut
  | apart isApart =>
    obtain ⟨hkeeps, hworks⟩ := Event.keeps_of_isApart isApart d.manager
    exact h.keep hkeeps hworks h.flights rfl rfl

end Desk.Signed

/-- After every run the tokens that are kept were shown, and tell what they tell. -/
theorem Desk.signed_after (s : Settings) (files : FileTree) (md : Metadata) (turns : List Turn) :
    let d := (Desk.start s files md).after turns
    d.Signed ∧ d.Shown turns := by
  -- Both are carried together, over the turns still to come, since what is shown relies on what is
  -- signed.
  have hrun : ∀ {d : Desk} {past : List Turn}, d.Signed → d.Shown past →
      (d.after turns).Signed ∧ (d.after turns).Shown (past ++ turns) := by
    induction turns with
    | nil => exact fun hsigned hshown => ⟨hsigned, by rwa [List.append_nil]⟩
    | cons turn turns ih =>
      intro d past hsigned hshown
      have hc := turn.course hsigned.known
      rw [List.append_cons]
      exact ih (hsigned.step hc) (hshown.step hsigned hc)
  exact hrun (.start s files md) (.start s files md)

/-! ## Who looks at datasets -/

namespace Desk.Signed

variable {d d' : Desk} {turn : Turn}

/-- A job that did not end was asked for when somebody ended its upload, and its requester is who
began that. -/
theorem signers (h : d.Signed) {k : Ticket} (hk : k ∈ d.manager.plant.pool.unfinished) :
    ∃ n u beginner ender, d.manager.uploads[n]? = some u ∧ k.job = u.job ∧
      d.began[n]? = some beginner ∧ d.ended[k.number]? = some (n, ender) ∧
        k.job.requester = beginner.principal := by
  obtain ⟨⟨n, ender⟩, hended, hjob⟩ := h.jobs k hk
  obtain ⟨u, hu, heq⟩ := known_of_wanted hjob
  have hrequester : (d.began.map Token.principal)[n]? = some k.job.requester := by
    rw [← h.requesters, List.getElem?_map, hjob]
    rfl
  rw [List.getElem?_map] at hrequester
  obtain ⟨beginner, hbegan, hwho⟩ := Option.map_eq_some_iff.1 hrequester
  exact ⟨n, u, beginner, ender, hu, heq.symm, hbegan, hended, hwho.symm⟩

/-- A worker that has a job is found by the number of the job. -/
theorem runningJob?_eq (h : d.Signed) {k : Ticket} (hk : k ∈ d.manager.plant.pool.running) :
    d.manager.plant.pool.runningJob? k.number = some k.job := by
  obtain ⟨k', hfind⟩ : ∃ k', d.manager.plant.pool.running.find? (fun t => t.number = k.number) =
      some k' := Option.isSome_iff_exists.1 (List.find?_isSome.2 ⟨k, hk, by simp⟩)
  have hnumber : k'.number = k.number := by simpa using List.find?_some hfind
  -- jobs of one number were asked for by one upload
  obtain ⟨e, he, hjob⟩ := h.jobs k (List.mem_append_left _ hk)
  obtain ⟨e', he', hjob'⟩ := h.jobs k' (List.mem_append_left _ (List.mem_of_find?_eq_some hfind))
  obtain rfl : e' = e := Option.some.inj (he'.symm.trans (hnumber ▸ he))
  rw [Pool.runningJob?, hfind]
  exact hjob'.symm.trans hjob

/-- A worker that is done with its job has looked at datasets as the job says. -/
theorem finish_looks (h : d.Signed) {k : Ticket} (hk : k ∈ d.manager.plant.pool.running) :
    ∃ looks, ((Turn.elsewhere (.finish k.number)).step d).lookups = d.lookups ++ looks ∧
      ∀ l ∈ looks, l.principal =
        d.manager.plant.metadata.actor k.job.account.name k.job.owner k.job.requester := by
  obtain ⟨looks, hleft, hwho⟩ := k.job.run_looks d.manager.plant.files d.manager.plant.metadata
  refine ⟨looks, ?_, hwho⟩
  show (d.manager.plant.run k.number).metadata.lookups = _
  rw [Plant.metadata_run (h.runningJob?_eq hk), hleft]
  rfl

/-- Nobody looks at a dataset but a worker that is done with its job. -/
theorem lookups_step (h : d.Signed)
    (hfinish : ∀ k ∈ d.manager.plant.pool.running, turn ≠ .elsewhere (.finish k.number))
    (hmetadata : ∀ md, turn ≠ .elsewhere (.metadata md)) : (turn.step d).lookups = d.lookups := by
  have hc := turn.course h.known
  generalize turn.step d = d' at hc
  have hsame : ∀ {t : Traffic}, t.manager.plant.metadata = d.manager.plant.metadata →
      (d.moved t).lookups = d.lookups := congrArg Metadata.lookups
  have hgoOn : ∀ {c m next}, m.plant.metadata = d.manager.plant.metadata →
      (d.moved (d.traffic.goOn c m next)).lookups = d.lookups :=
    fun heq => hsame (by rw [Traffic.manager_goOn, heq])
  -- Only a running job that is finished looks at anything, and no other change of the collaborators
  -- is made here.
  cases hc with
  | nothing => rfl
  | refused => rfl
  | forgotten => rfl
  | registered => exact hgoOn (m := SessionManager.begin _ _ d.manager) rfl
  | found => exact hgoOn (m := d.manager) rfl
  | noticed => exact hgoOn rfl
  | resumed underWay keeps works metadata => exact hgoOn metadata
  | @submitted c a n now u number m underWay known keeps taken metadata =>
    show (d.moved (d.traffic.goOn c m none)).lookups = d.lookups
    exact hgoOn metadata
  | @apart e isApart =>
    refine hsame ?_
    cases e with
    | close => rfl
    | take => rfl
    | outage saveDown loadDown => rfl
    | metadata md => exact absurd rfl (hmetadata md)
    | crash number =>
      show (d.manager.plant.crash number).metadata = _
      rw [Plant.crash]
      split <;> rfl
    | finish number =>
      have hnobody : d.manager.plant.pool.runningJob? number = none :=
        Option.eq_none_iff_forall_ne_some.2 fun job hjob =>
          hfinish _ (Pool.mem_running_of_runningJob? hjob) rfl
      show (d.manager.plant.run number).metadata = _
      rw [Plant.run_of_nobody hnobody]
    | _ => cases isApart

end Desk.Signed

/-- **Deployments look at datasets as who began the upload**, whoever has ended it. -/
theorem looks_as_who_began (s : Settings) (files : FileTree) (md : Metadata) (turns : List Turn) :
    let d := (Desk.start s files md).after turns
    let pool := d.manager.plant.pool
    -- Every upload was begun by a registration for its account. Each job that was accepted has the
    -- request that ended an upload for it, which was made for the account of that upload; and no
    -- upload was ended twice.
    (∀ (n : Nat) (token : Token), d.began[n]? = some token → ∃ i info id now,
      Turn.call i (.init token info id now) ∈ turns ∧
        ∃ u : Upload, d.manager.uploads[n]? = some u ∧ u.account = info.account) ∧
    (∀ e ∈ d.ended, ∃ i r now, Turn.call i (.deploy e.2 r now) ∈ turns ∧
      ∃ u : Upload, d.manager.uploads[e.1]? = some u ∧ u.account = r.account) ∧
    d.began.length = d.manager.uploads.length ∧ d.ended.length = pool.stats.submitted ∧
    (d.ended.map (·.1)).Nodup ∧
    -- A job that a worker is done with has looked at datasets, where no owner is asked for and
    -- nobody acts for the namespace, as who began its upload. So it has not looked as who ended
    -- that, unless it has not looked at all, or these are the same.
    (∀ k ∈ pool.running, ∃ n u beginner ender, d.manager.uploads[n]? = some u ∧ k.job = u.job ∧
      d.began[n]? = some beginner ∧ d.ended[k.number]? = some (n, ender) ∧
      (k.job.owner = none →
        Keyed.find? k.job.account.name d.manager.plant.metadata.impersonation = none →
        ∃ looks, ((Turn.elsewhere (.finish k.number)).step d).lookups = d.lookups ++ looks ∧
          (∀ l ∈ looks, l.principal = beginner.principal) ∧
          ((∀ l ∈ looks, l.principal = ender.principal) ↔
            looks = [] ∨ ender.principal = beginner.principal))) ∧
    -- Nothing else that happens to the service looks at a dataset.
    ∀ turn : Turn, (∀ k ∈ pool.running, turn ≠ .elsewhere (.finish k.number)) →
      (∀ md, turn ≠ .elsewhere (.metadata md)) → (turn.step d).lookups = d.lookups := by
  intro d pool
  obtain ⟨h, hshown⟩ : d.Signed ∧ d.Shown turns := Desk.signed_after s files md turns
  refine ⟨hshown.began, hshown.ended, h.began_length, h.numbered, h.once, fun k hk => ?_,
    fun turn => h.lookups_step⟩
  obtain ⟨n, u, beginner, ender, hu, hjob, hbegan, hended, hrequester⟩ :=
    h.signers (List.mem_append_left _ hk)
  refine ⟨n, u, beginner, ender, hu, hjob, hbegan, hended, fun howner hnobody => ?_⟩
  obtain ⟨looks, hleft, hwho⟩ := h.finish_looks hk
  have hbeginner : ∀ l ∈ looks, l.principal = beginner.principal := by
    intro l hl
    rw [hwho l hl, ← hrequester]
    simp only [Metadata.actor, howner, hnobody]
  refine ⟨looks, hleft, hbeginner, fun hall => ?_, ?_⟩
  · cases looks with
    | nil => exact .inl rfl
    | cons l looks =>
      have hl : l ∈ l :: looks := List.mem_cons_self
      exact .inr ((hall l hl).symm.trans (hbeginner l hl))
  · rintro (rfl | hsame)
    · exact fun l hl => absurd hl List.not_mem_nil
    · exact fun l hl => (hbeginner l hl).trans hsame.symm

namespace Sample

/-- What an account uploads that declares a dataset. -/
def declaring : List UInt8 := Utf8.encode
  ("\x7b\"name\":\"app\",\"datasets\":" ++
    "\x7b\"d\":\x7b\"instance_name\":\"d\",\"type_name\":\"t\"\x7d\x7d\x7d")

/-- A caller makes a request and goes on with it at once. -/
def served (c : Call) : List Turn := [.call 0 c, .resume (.caller 0)]

/-- An upload is begun with one token and ended with another, and a worker takes the job. -/
def signedBy (beginner ender : Token) : List Turn :=
  served (.init beginner { account := account, fileName := "app.json" } ⟨0⟩ now) ++
    served (.chunk beginner (fresh 0).resource (some declaring)) ++
    served (.deploy ender (fresh 0).resource now) ++ [.elsewhere .take]

/-- The service after that. -/
def desk (beginner ender : Token) : Desk :=
  (Desk.start settings .empty .empty).after (signedBy beginner ender)

end Sample

open Sample in
/-- Who ends an upload that they began looks at its dataset. -/
theorem beginner_who_ends_looks :
    let d := desk ⟨"alice"⟩ ⟨" alice"⟩
    (⟨0, job⟩ : Ticket) ∈ d.manager.plant.pool.running ∧ job.owner = none ∧
      Keyed.find? job.account.name d.manager.plant.metadata.impersonation = none ∧
      d.ended = [(0, ⟨" alice"⟩)] ∧
      ∃ looks, ((Turn.elsewhere (.finish 0)).step d).lookups = d.lookups ++ looks ∧ looks ≠ [] ∧
        ∀ l ∈ looks, l.principal = (⟨" alice"⟩ : Token).principal := by
  intro d
  have hrunning : (⟨0, job⟩ : Ticket) ∈ d.manager.plant.pool.running := by decide +kernel
  have hnobody : Keyed.find? job.account.name d.manager.plant.metadata.impersonation = none := by
    decide +kernel
  have hshown : d.began = [⟨"alice"⟩] ∧ d.ended = [(0, ⟨" alice"⟩)] := by decide +kernel
  -- Were there no look-ups, the log would not have grown, but it has.
  have hsome : ((Turn.elsewhere (.finish 0)).step d).lookups ≠ d.lookups := by decide +kernel
  obtain ⟨-, -, -, -, -, hlooks, -⟩ :=
    looks_as_who_began settings .empty .empty (signedBy ⟨"alice"⟩ ⟨" alice"⟩)
  obtain ⟨n, -, beginner, ender, -, -, hbegan, hended, hrun⟩ := hlooks ⟨0, job⟩ hrunning
  obtain ⟨looks, hleft, -, hiff⟩ := hrun rfl hnobody
  have hentry : d.ended[0]? = some (0, ⟨" alice"⟩) := by rw [hshown.2]; rfl
  cases hentry.symm.trans hended
  have hfirst : d.began[0]? = some ⟨"alice"⟩ := by rw [hshown.1]; rfl
  cases hfirst.symm.trans hbegan
  refine ⟨hrunning, rfl, hnobody, hshown.2, looks, hleft, ?_, hiff.2 (.inr (by decide +kernel))⟩
  rintro rfl
  exact hsome (hleft.trans (List.append_nil _))

open Sample in
/-- Who ends an upload that somebody else began does not look at its dataset: who began it does. -/
theorem ender_does_not_look :
    let d := desk ⟨"alice"⟩ ⟨"bob"⟩
    (⟨0, job⟩ : Ticket) ∈ d.manager.plant.pool.running ∧ job.owner = none ∧
      Keyed.find? job.account.name d.manager.plant.metadata.impersonation = none ∧
      d.began = [⟨"alice"⟩] ∧ d.ended = [(0, ⟨"bob"⟩)] ∧ d.lookups = [] ∧
      ((Turn.elsewhere (.finish 0)).step d).lookups = [⟨⟨"acme", "d"⟩, "alice"⟩] ∧
      "alice" ≠ (⟨"bob"⟩ : Token).principal := by
  decide +kernel

end Deployment
