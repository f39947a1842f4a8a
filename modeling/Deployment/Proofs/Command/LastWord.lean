import Deployment.Proofs.Command.Agreement

/-! # The last word

When a deployment has run, its result is at hand, and yet it is not what the program reports. It
reports what the records tell of the account by then: the result if the record of the upload can be
saved, and otherwise what an earlier deployment has left.

* **`uploadAll_ok`** — an upload that came through has left one job to wait for.
* **`report_of_awaiting`** — what is reported, in terms of what is saved.
* **`records_have_last_word`** — what is reported of a deployment that has run. -/

namespace Deployment

open Stateful FileTree SessionManager

/-! ## Uploads that came through -/

section
variable {s : Settings} {t : FileTree} {token : Token} {info : ResourceInfo} {id : Ulid}
  {now : Timestamp} {parts : List (List UInt8)}

/-- An upload without parts ends with its job waiting exactly where its directory can be made. -/
theorem uploadAll_nil_yields (ht : token.isBlank = false) (hv : info.account.isValid = true)
    (hn : Path.isPlainName info.fileName = true) (hr : s.isReserved info.fileName = false) :
    yields (uploadAll token info [] id now) (start s t .empty) =
      (yields (Files.createDirectories (s.accountDirectory info.account)) t).mapError
          (.storage info.account) >>=
        fun r => .ok (⟨(s.received info token.principal id now).resource, 0⟩,
          awaiting s r.2 (s.received info token.principal id now)) := by
  let u := (start s t .empty).newUpload info.account info token.principal id now
  let m := begin info.account u (start s t .empty)
  rw [uploadAll_eq ht, yields_bind, register_start token.principal hv hn hr]
  cases hd : Files.createDirectories (s.accountDirectory info.account) t with
  | error f t₁ => rw [yields_of_error hd]; rfl
  | ok _ t₁ =>
    rw [yields_of_ok hd]
    simp only [Failing.ok_bind, Failing.mapError_ok]
    have hc : (withFiles t₁ m).InProgress info.account 0 u := ⟨if_pos rfl, rfl⟩
    have htaken := Pool.submit_start s.workers s.queueCapacity u.job
    rw [send_nil]
    refine (finalize_yields hc rfl).trans ?_
    exact yields_of_ok (requestDeploy_of_taken (m := withFiles t₁ (put 0 u.waiting m)) htaken)

/-- Whoever uploads has to be named, and the names of the account and of the file to be good. -/
theorem names_of_uploadAll {h : DeployHandle} {m : SessionManager}
    (hup : uploadAll token info parts id now (start s t .empty) = .ok h m) :
    token.isBlank = false ∧ info.account.isValid = true ∧
      Path.isPlainName info.fileName = true ∧ s.isReserved info.fileName = false := by
  obtain ⟨resource, m₁, hinit, -⟩ := run_bind_ok.1 hup
  obtain ⟨⟨⟩, m₂, hcheck, hregister⟩ := run_bind_ok.1 hinit
  have ht : token.isBlank = false := by
    cases hblank : token.isBlank with
    | false => rfl
    | true => simp only [Service.check, hblank, if_true, run_throw] at hcheck; cases hcheck
  have hstart : m₂ = start s t .empty := by
    simp only [Service.check, ht, Bool.false_eq_true, if_false, run_pure] at hcheck
    cases hcheck
    rfl
  -- Past the token, the names are checked when the session is opened.
  subst hstart
  obtain ⟨u, m₃, henter, -⟩ := run_bind_ok.1 hregister
  obtain ⟨f, -, hrefused⟩ | ⟨hv, hn, hr, -⟩ :=
    enter_cases (start s t .empty) info.account info token.principal id now
  · cases hrefused.symm.trans henter
  · exact ⟨ht, hv, hn, hr⟩

/-- An upload that came through has left its one job to wait for, and the directory of its account
can be entered. -/
theorem uploadAll_ok {h : DeployHandle} {m : SessionManager} (hp : ∀ part ∈ parts, part ≠ [])
    (hup : uploadAll token info parts id now (start s t .empty) = .ok h m) :
    let u := s.received info token.principal id now
    ∃ t₁, t₁.Reaches (s.accountDirectory info.account) ∧ h = ⟨u.resource, 0⟩ ∧
      m = awaiting s t₁ u := by
  intro u
  obtain ⟨ht, hv, hn, hr⟩ := names_of_uploadAll hup
  have hyields := yields_of_ok hup
  cases parts with
  | nil =>
    rw [uploadAll_nil_yields ht hv hn hr] at hyields
    cases hd : Files.createDirectories (s.accountDirectory info.account) t with
    | error f t₁ => rw [yields_of_error hd] at hyields; cases hyields
    | ok _ t₁ =>
      rw [yields_of_ok hd] at hyields
      cases hyields
      exact ⟨t₁, Files.createDirectories_reaches hd, rfl, rfl⟩
  | cons part rest =>
    have hb : (part :: rest).flatten ≠ [] := fun hnone =>
      hp part List.mem_cons_self (List.append_eq_nil_iff.1 hnone).1
    rw [uploadAll_yields ht hv hn hr hp hb] at hyields
    cases hrec : s.receive info.account info.fileName (part :: rest) t with
    | error f t₁ => rw [yields_of_error hrec] at hyields; cases hyields
    | ok _ t₁ =>
      rw [yields_of_ok hrec] at hyields
      cases hyields
      -- what was received can be read, so the path to it leads somewhere
      have hread := Settings.read_of_receive hn hb hrec
      cases hres : t₁.resolve (Path.join (s.accountDirectory info.account) info.fileName) with
      | error f => simp only [FileTree.read, look, hres, Failing.error_bind] at hread; cases hread
      | ok target => exact ⟨t₁, (reaches_of_resolve_join hn hres).1, rfl, rfl⟩

end

/-! ## What is reported -/

/-- What a deployment is reported to have come to, if its result is told. -/
theorem outcomeReport_ofResult (json : Bool) (resource : ResourceId) (r : DeployResult) :
    outcomeReport json (.ofResult resource r) = match r with
      | .ok d => { output := showOutcome json ⟨resource, .of .deployed, d.programs⟩ }
      | .error f => failure (.incomplete f.message)
          (showOutcome json ⟨resource, .failed f.message, []⟩) := by
  cases r <;> rfl

section
variable {s : Settings} {t : FileTree} {u : Upload} {token : Token} {now : Timestamp}

/-- If its record cannot be saved, what was told before the end of an upload is told after it. -/
theorem concluded_of_unsaved (now : Timestamp) (ht : token.isBlank = false)
    (hv : u.account.isValid = true) (hown : u.resource.account = u.account)
    (hn : Path.isPlainName s.sessionFile = true)
    (hreach : t.Reaches (s.accountDirectory u.account))
    (hsave : ¬ (start s t .empty).records.Takes (u.recorded now t) t) :
    ∃ left, concluded token now (⟨u.resource, 0⟩, awaiting s t u) =
      (((start s t .empty).records.told t u.account).mapError
        (fun f => CommandFault.service (.session f))).map fun reply =>
          (⟨u.resource, reply, programsOf (u.verdict t)⟩, left) := by
  rw [concluded_awaiting ht hv hown]
  have hr : (u.recorded now t).account = u.account := rfl
  generalize u.recorded now t = r at hr hsave ⊢
  cases hs : (start s t .empty).records.save r t with
  | ok _ t' => exact absurd ⟨t', hs⟩ hsave
  | error f t' =>
    have hroot : t.Reaches (start s t .empty).records.root := Settings.reaches_archiveDir hv hreach
    -- A save that fails leaves the file of the record, so what is told is what was told before.
    have hread := RecordStore.save_error_read (s := (start s t .empty).records) hn (hr ▸ hv) hroot
      (hr ▸ hreach) hs
    rw [hr] at hread
    refine ⟨t', ?_⟩
    rw [finalState_of_error hs, RecordStore.told_congr rfl rfl rfl hread]

/-- What is reported once the job of an upload has run. -/
theorem report_of_awaiting (json : Bool) (ht : token.isBlank = false)
    (hv : u.account.isValid = true) (hown : u.resource.account = u.account)
    (hn : Path.isPlainName s.sessionFile = true) (hu : (u.record now).Sound)
    (hreach : t.Reaches (s.accountDirectory u.account)) {report : Report}
    (hreport : report = match concluded token now (⟨u.resource, 0⟩, awaiting s t u) with
      | .ok r => outcomeReport json r.1
      | .error f => failure f) :
    ((start s t .empty).records.Takes (u.recorded now t) t →
        report = outcomeReport json (.ofResult u.resource (u.verdict t))) ∧
      (¬ (start s t .empty).records.Takes (u.recorded now t) t →
        report = match (start s t .empty).records.told t u.account with
          | .ok reply => outcomeReport json ⟨u.resource, reply, programsOf (u.verdict t)⟩
          | .error f => failure (.service (.session f))) := by
  refine ⟨fun hsave => ?_, fun hsave => ?_⟩
  · obtain ⟨t', hconcluded⟩ := concluded_of_save ht hn hown hu hsave
    rw [hreport, hconcluded]
    rfl
  · obtain ⟨left, hconcluded⟩ := concluded_of_unsaved now ht hv hown hn hreach hsave
    rw [hreport, hconcluded]
    cases (start s t .empty).records.told t u.account <;> rfl

end

/-- Once the job of a deployment has run its result is at hand. If the record of its upload, which
tells that result, can be saved by then, the result is reported: a deployment that succeeded as
DEPLOYED with exit code 0, and one that failed as FAILED with the text of its fault and exit code 1.
Otherwise the records have the last word: what an earlier deployment of the account has left there
is reported, whatever the result is. -/
theorem records_have_last_word {i : Invocation} {account archive token : String}
    {owner : Option String} {s : Settings} {t : FileTree} {bytes : List UInt8}
    {info : ResourceInfo} {id : Ulid} {now : Timestamp} {h : DeployHandle} {m : SessionManager}
    (deploys : i.command = .deploy account archive owner token) (chosen : i.settings t = .ok s)
    (holds : t.read archive = .ok bytes)
    (described : uploadInfo account archive owner bytes = .ok info) (clock : now.Sound)
    (starts : canStart s = true)
    (waits : uploadAll ⟨token⟩ info (pieces s.chunkSize bytes) id now (start s t .empty) =
      .ok h m) :
    let report := (i.run id now t).1
    ∃ (u : Upload) (r : DeployResult), m.InProgress ⟨account⟩ 0 u ∧
      (m.runAll now).result? h = some r ∧
      (m.records.Takes ((u.endedWith r).record now) m.plant.files →
        report = match r with
          | .ok d => { output := showOutcome i.json ⟨h.resource, .of .deployed, d.programs⟩ }
          | .error f => failure (.incomplete f.message)
              (showOutcome i.json ⟨h.resource, .failed f.message, []⟩)) ∧
      (¬ m.records.Takes ((u.endedWith r).record now) m.plant.files →
        report = match m.records.told m.plant.files ⟨account⟩ with
          | .ok reply => outcomeReport i.json ⟨h.resource, reply, programsOf r⟩
          | .error f => failure (.service (.session f))) := by
  intro report
  have hn := Settings.isPlainName_of_validate (Invocation.validate_of_settings chosen)
  obtain ⟨ht, hv, -⟩ := names_of_uploadAll waits
  obtain ⟨haccount, -⟩ := uploadInfo_ok described
  have hyields : yields (runDeploy s account archive owner ⟨token⟩ id now) t = _ :=
    runDeploy_yields holds described starts
  rw [yields_of_ok waits, Failing.mapError_ok, Failing.ok_bind] at hyields
  -- However the bytes are cut, the session then waits for its job over one and the same files.
  obtain ⟨t₁, hreach, rfl, rfl⟩ := uploadAll_ok (fun _ => ne_nil_of_mem_pieces) waits
  let u := s.received info (Token.principal ⟨token⟩) id now
  have hreport : report = match concluded ⟨token⟩ now (⟨u.resource, 0⟩, awaiting s t₁ u) with
      | .ok r => outcomeReport i.json r.1
      | .error f => failure f := by
    have hdeploy := Command.deploy_report account archive owner token s i.json id now t
    rw [hyields] at hdeploy
    simp only [report, Invocation.run, chosen, deploys]
    exact hdeploy
  -- Nobody else is there: the one worker takes the one job and ends it.
  have hresult : ((awaiting s t₁ u).runAll now).result? ⟨u.resource, 0⟩ = some (u.verdict t₁) := by
    obtain ⟨md, stats, hall⟩ := runAll_awaiting s t₁ u now
    rw [hall.trans (settle_finished s t₁ u md stats now)]
    rfl
  have hversion : 1 ≤ Nat.pow 2 32 - 1 := by decide
  have hsound : (u.record now).Sound := ⟨hversion, clock, clock⟩
  obtain ⟨hsaved, hunsaved⟩ := report_of_awaiting i.json ht (u := u) hv rfl hn hsound hreach hreport
  have haccount : u.account = ⟨account⟩ := haccount
  rw [haccount] at hunsaved
  refine ⟨u, u.verdict t₁, ⟨if_pos haccount, rfl⟩, hresult, fun htakes => ?_, hunsaved⟩
  rw [hsaved htakes]
  exact outcomeReport_ofResult i.json u.resource (u.verdict t₁)

namespace Sample

/-- Its upload, over files that there are. -/
def uploading (bytes : List UInt8) (t : FileTree) :
    Except SessionFault (DeployHandle × SessionManager) :=
  yields (uploadAll ⟨"alice"⟩ (described bytes) (pieces settings.chunkSize bytes) ⟨0⟩ now)
    (start settings t .empty)

/-- The record of an upload that was deployed. -/
def deployedRecord : SessionRecord := { (fresh 0).record now with status := .deployed }

/-- A descriptor that lacks a name. -/
def nameless : List UInt8 := Utf8.encode "\x7b\x7d"

/-- The files with it, where an earlier upload of the account was deployed and no other record can
be saved: a directory stands in the way. -/
def earlierFiles : FileTree :=
  let records : RecordStore := ⟨"root", "session.json", false, false⟩
  finalState (Files.createDirectories "root/acme/session.json.tmp")
    (finalState (records.save deployedRecord) (finalState (Files.write "app.json" nameless) .empty))

end Sample

open Sample in
/-- Where the record of the account can be saved, a descriptor is reported as deployed. -/
theorem deployment_is_reported :
    ∃ d : Deployed, (deploying.run ⟨0⟩ now unsentFiles).1 =
      { output := showOutcome false ⟨(fresh 0).resource, .of .deployed, d.programs⟩ } := by
  let saves (m : SessionManager) (u : Upload) (r : DeployResult) : Bool :=
    (yields (m.records.save ((u.endedWith r).record now)) m.plant.files).isOk
  -- The upload waits, its job ends well, and the record can be saved: one evaluation.
  have hready : (((uploading unsent unsentFiles).toOption.map fun r =>
      (r.1, (r.2.uploads[0]?).bind fun u => ((r.2.runAll now).result? r.1).map fun result =>
        (result.isOk, saves r.2 u result)))) =
          some (⟨(fresh 0).resource, 0⟩, some (true, true)) := by decide +kernel
  obtain ⟨⟨h, m⟩, hup, hfacts⟩ := Option.map_eq_some_iff.1 hready
  obtain ⟨rfl, hends⟩ : h = ⟨(fresh 0).resource, 0⟩ ∧ _ := Prod.mk.inj hfacts
  have hclock : now.Sound := ⟨by decide, .inl (by decide), by decide⟩
  obtain ⟨u, r, hprogress, hresult, htold, -⟩ := records_have_last_word (i := deploying)
    (s := settings) (t := unsentFiles) rfl rfl holds_unsent rfl hclock rfl
    (eq_ok_of_yields (Failing.eq_ok_of_toOption hup))
  simp only [hprogress.known, hresult, Option.bind_some, Option.map_some, Option.some.injEq,
    Prod.mk.injEq] at hends
  obtain ⟨hok, hsaves⟩ := hends
  obtain ⟨⟨⟩, t', hsave⟩ := exists_ok_of_isOk hsaves
  cases r with
  | error f => cases hok
  | ok d => exact ⟨d, htold ⟨t', hsave⟩⟩

open Sample in
/-- Where it cannot be saved, a deployment that failed is reported as deployed, with exit code 0,
for an earlier one was. -/
theorem earlier_record_is_reported :
    deploying.settings earlierFiles = .ok settings ∧
      earlierFiles.read "app.json" = .ok nameless ∧
      uploadInfo "acme" "app.json" none nameless = .ok (described nameless) ∧
      (∃ h m f, uploadAll ⟨"alice"⟩ (described nameless) (pieces settings.chunkSize nameless)
          ⟨0⟩ now (start settings earlierFiles .empty) = .ok h m ∧
        (m.runAll now).result? h = some (.error f)) ∧
      (deploying.run ⟨0⟩ now earlierFiles).1 =
        { output :=
            "Resource: acme/00000000000000000000000000\nStatus: DEPLOYED (5) Deployed\n" } := by
  have hfails : ((uploading nameless earlierFiles).toOption.map fun r =>
      ((r.2.runAll now).result? r.1).map Except.isOk) = some (some false) := by decide +kernel
  obtain ⟨⟨h, m⟩, hup, hfacts⟩ := Option.map_eq_some_iff.1 hfails
  obtain ⟨r, hresult, hbad⟩ := Option.map_eq_some_iff.1 hfacts
  refine ⟨rfl, Failing.eq_ok_of_toOption (by decide +kernel), rfl, ?_, by decide +kernel⟩
  cases r with
  | ok d => cases hbad
  | error f => exact ⟨h, m, f, eq_ok_of_yields (Failing.eq_ok_of_toOption hup), hresult⟩

end Deployment
