import Deployment.Proofs.Command.LoneUpload
import Deployment.Proofs.Verification.Requester

/-! # Checking and deploying

A file is checked where it lies. To be deployed it is uploaded first, and checked at another path in
another name before it is registered. Both come to the same.

* **`ApplicationSpec.ofArchive_congr`** — of its path an archive is told only by the last name.
* **`Deployable.stores_what_is_approved`** — what passed the gates is registered, if nothing is
  unavailable.
* **`Concurs`** — what a check says, and what a deployment comes to, if they concur.
* **`Concurs.of_read`** — they do, if the same was read.
* **`checks_as_it_deploys`** — a check and a deployment report the same. -/

namespace Deployment

open Stateful FileTree SessionManager

/-! ## Archives at other paths -/

/-- Which format an archive has is told by the last name of its path. -/
theorem ApplicationSpec.ofArchive_congr {path path' : String}
    (h : Path.fileName? path' = Path.fileName? path) (bytes : List UInt8) :
    ofArchive path' bytes = ofArchive path bytes := by
  have hextension : Path.extension? path' = Path.extension? path := by
    rw [Path.extension?, Path.extension?, h]
  have hformat : ArchiveFormat.ofPath path' = ArchiveFormat.ofPath path := by
    rw [ArchiveFormat.ofPath, ArchiveFormat.ofPath, hextension]
  rw [ofArchive, ofArchive, hformat]

/-! ## Registration -/

namespace Deployable

variable {d : Deployable}

/-- What is told of a deployment names the programs as their descriptor does. -/
theorem names_of_formed (h : d.spec.verdict = .ok ()) :
    d.deployed.programs.map (·.2) = d.spec.programNames := by
  obtain ⟨-, -, hnames, -⟩ := ApplicationSpec.verdict_ok.1 h
  rw [deployed, programList, ApplicationSpec.programNames, List.map_map]
  exact List.map_congr_left fun p hp => hnames p hp

/-- Where every request is available, what passed the gates is registered. -/
theorem stores_what_is_approved {e : Deployable} {g g' : Gatehouse} (hr : g.registry.Faithful)
    (hdown : g.metadata.down = []) (h : d.approve g = .ok e g') :
    answer e.store g'.metadata = .ok d.deployed ∧
      d.deployed.programs.map (·.2) = d.spec.programNames := by
  have hlooks := d.approve_yields.looks g hr
  rw [finalState_of_ok h] at hlooks
  obtain ⟨rfl, hadmissible⟩ := d.approve_yields.sound hr h
  have hdown' : g'.metadata.down = [] := hlooks.1.down_eq.trans hdown
  obtain ⟨p, m', hregister⟩ := e.register_registers.succeeding g'.metadata hdown'
  obtain ⟨rfl, -⟩ := register_eq_ok hregister
  refine ⟨?_, e.names_of_formed hadmissible.formed⟩
  rw [answer, store_run, hregister]

end Deployable

/-! ## Verdicts -/

/-- What a check says and what a deployment comes to, if they concur. -/
inductive Concurs : Except CommandFault Deployable → DeployResult → Prop
  | passed (d : Deployable) (p : Deployed) (names : p.programs.map (·.2) = d.spec.programNames) :
      Concurs (.ok d) (.ok p)
  | refused (f : VerificationFault) : Concurs (.error (.verification f)) (.error (.verification f))
  | unloaded (f f' : DeployFault) : Concurs (.error (.service (.deploy f))) (.error f')

/-- What is loaded from an archive is what its bytes describe. -/
theorem DeployJob.load_of_read {job : DeployJob} {t : FileTree} {bytes : List UInt8}
    (h : t.read job.archive = .ok bytes) :
    job.load t = match ApplicationSpec.ofArchive job.archive bytes with
      | .ok spec => .ok (job.deployable spec)
      | .error f => .error (.archive job.archive f.message) := by
  simp only [load, readArchive, h]
  cases ApplicationSpec.ofArchive job.archive bytes <;> rfl

/-- A check loads an archive and passes the gates. -/
theorem runVerify_eq (archive scope : String) (owner : Option String) (t : FileTree) :
    let check : DeployJob := ⟨⟨scope⟩, archive, owner.map (⟨·⟩), Invocation.localPrincipal⟩
    runVerify archive scope owner t = match check.load t with
      | .error f => .error (.service (.deploy f))
      | .ok d => (answer d.approve ⟨.empty, .empty⟩).mapError .verification := by
  intro check
  simp only [runVerify, check, answer]
  cases DeployJob.load ⟨⟨scope⟩, archive, owner.map (⟨·⟩), Invocation.localPrincipal⟩ t with
  | error f => rfl
  | ok d =>
    dsimp only
    cases d.approve ⟨.empty, .empty⟩ <;> rfl

/-- A deployment does so too, and then stores the application. -/
theorem DeployJob.answer_run (job : DeployJob) (t : FileTree) (m : Metadata) :
    answer (job.run t) m = match job.load t with
      | .error f => .error f
      | .ok d => match d.approve ⟨m, .empty⟩ with
        | .error f _ => .error (.verification f)
        | .ok d g => answer d.store g.metadata := by
  cases hload : job.load t with
  | error f => rw [run, hload]; rfl
  | ok d =>
    rw [run_of_load hload, answer, run_bind, Deployable.verify]
    dsimp only
    cases d.approve ⟨m, .empty⟩ <;> rfl

/-- A check in the namespace of an account concurs with a deployment for the account that reads the
same bytes under the same name and asks for the same owner. -/
theorem Concurs.of_read {job : DeployJob} {archive : String} {owner : Option String}
    {t t' : FileTree} {bytes : List UInt8} (howner : job.owner = owner.map (⟨·⟩))
    (hname : Path.fileName? job.archive = Path.fileName? archive)
    (hread : t.read archive = .ok bytes) (hread' : t'.read job.archive = .ok bytes) :
    Concurs (runVerify archive job.account.name owner t) (answer (job.run t') .empty) := by
  let check : DeployJob :=
    ⟨⟨job.account.name⟩, archive, owner.map (⟨·⟩), Invocation.localPrincipal⟩
  rw [runVerify_eq, job.answer_run, job.load_of_read hread', check.load_of_read hread,
    ApplicationSpec.ofArchive_congr hname]
  cases ApplicationSpec.ofArchive archive bytes with
  | error f => exact .unloaded _ _
  | ok spec =>
    let d := check.deployable spec
    let d' := job.deployable spec
    have hd' : d' = { d with archive := job.archive, requester := job.requester } := by
      simp only [d', DeployJob.deployable, howner]
      rfl
    -- the two differ in who asks and in where the archive lies, which the gates do not tell apart
    let g : Gatehouse := ⟨.empty, .empty⟩
    have halike := d.approve_likewise job.archive job.requester g g ⟨⟨[], rfl⟩, rfl⟩
    rw [← hd'] at halike
    have hstores : ∀ e g', d'.approve g = .ok e g' → answer e.store g'.metadata = .ok d'.deployed ∧
        d'.deployed.programs.map (·.2) = d'.spec.programNames :=
      fun _ _ => d'.stores_what_is_approved VerifierRegistry.faithful_empty rfl
    show Concurs ((answer d.approve g).mapError .verification) (match d'.approve g with
      | .error f _ => .error (.verification f)
      | .ok e g => answer e.store g.metadata)
    rw [answer]
    generalize d.approve g = gates, d'.approve g = gates' at halike hstores ⊢
    cases halike with
    | error f _ => exact .refused f
    | ok value _ =>
      obtain ⟨rfl, rfl⟩ := value
      obtain ⟨hstored, hnames⟩ := hstores _ _ rfl
      show Concurs (.ok d) (answer d'.store _)
      rw [hstored]
      exact .passed d d'.deployed hnames

/-- How an upload is told to have ended, by what its deployment came to. -/
def DeployOutcome.ofResult (resource : ResourceId) (r : DeployResult) : DeployOutcome :=
  ⟨resource, .ofOutcome (outcome r).1 (outcome r).2, programsOf r⟩

/-- A check and a deployment that concur exit alike and list the same programs, and the deployment
tells the fault that the check has found. -/
theorem Concurs.reports {check : Except CommandFault Deployable} {verdict : DeployResult}
    (h : Concurs check verdict) (json json' : Bool) (resource : ResourceId) :
    let deployed := outcomeReport json (.ofResult resource verdict)
    let verified := reportOf (showVerified json') check
    (deployed.code = 0 ↔ verified.code = 0) ∧
    (deployed.code = 0 → ∃ (o : DeployOutcome) (d : Deployable),
      deployed = { output := showOutcome json o } ∧ o.status = .of .deployed ∧
        verified = { output := showVerified json' d } ∧
        o.programs.map (·.2) = d.spec.programNames) ∧
    ∀ f, check = .error (.verification f) →
      verified = failure (.verification f) ∧
        ∃ o : DeployOutcome, deployed = outcomeReport json o ∧ o.status = .failed f.message := by
  intro deployed verified
  have hfails : ∀ f, (outcomeReport json (.ofResult resource (.error f))).code ≠ 0 :=
    fun _ => Nat.one_ne_zero
  have hfails' : ∀ f, (reportOf (showVerified json') (.error f)).code ≠ 0 :=
    CommandFault.code_ne_zero
  -- Both commands pass, both are refused by the same gate, or neither can read the program.
  cases h with
  | passed d p names =>
    refine ⟨⟨fun _ => rfl, fun _ => rfl⟩, fun _ => ⟨_, d, rfl, rfl, rfl, names⟩, fun f hf => ?_⟩
    cases hf
  | refused f =>
    refine ⟨iff_of_false (hfails _) (hfails' _), fun h => absurd h (hfails _), fun f' hf => ?_⟩
    cases hf
    exact ⟨rfl, _, rfl, rfl⟩
  | unloaded f f' =>
    refine ⟨iff_of_false (hfails _) (hfails' _), fun h => absurd h (hfails _), fun f hf => ?_⟩
    cases hf

/-! ## Reports -/

/-- The settings of an invocation can be used. -/
theorem Invocation.validate_of_settings {i : Invocation} {t : FileTree} {s : Settings}
    (h : i.settings t = .ok s) : s.validate = .ok () := by
  -- With a file or without, the settings are the ones that have just been validated.
  have hgoes : ∃ s₀ : Settings, (s₀.validate >>= fun _ => .ok s₀) = .ok s := by
    rw [settings] at h
    cases hfile : i.config with
    | none =>
      rw [hfile] at h
      exact ⟨_, h⟩
    | some path =>
      rw [hfile] at h
      cases hread : Settings.ofFile t path with
      | error f =>
        simp only [hread] at h
        cases h
      | ok s₀ =>
        simp only [hread] at h
        exact ⟨_, h⟩
  obtain ⟨s₀, hs₀⟩ := hgoes
  cases hvalid : s₀.validate with
  | error f =>
    rw [hvalid] at hs₀
    cases hs₀
  | ok _ =>
    rw [hvalid] at hs₀
    cases hs₀
    exact hvalid

/-- Where a file can be received and the record of its upload saved, the deployment of the file
tells how the job of its upload ended. -/
theorem deploy_tells {s : Settings} {t t₁ : FileTree} {account archive token : String}
    {owner : Option String} {bytes : List UInt8} {info : ResourceInfo} {now : Timestamp}
    (json : Bool)
    (id : Ulid) (hs : s.validate = .ok ()) (hstart : canStart s = true)
    (hread : t.read archive = .ok bytes) (hsome : bytes ≠ [])
    (hinfo : uploadInfo account archive owner bytes = .ok info)
    (hplain : Path.isPlainName info.fileName = true) (hfree : s.isReserved info.fileName = false)
    (hvalid : info.account.isValid = true) (htoken : Token.isBlank ⟨token⟩ = false)
    (hnow : now.Sound)
    (hreceived : s.receive info.account info.fileName (pieces s.chunkSize bytes) t = .ok () t₁)
    (hsaved : (start s t₁ .empty).records.Takes
      ((s.received info (Token.principal ⟨token⟩) id now).recorded now t₁) t₁) :
    let u := s.received info (Token.principal ⟨token⟩) id now
    ((Command.deploy account archive owner token).run s json id now t).1 =
      outcomeReport json (.ofResult u.resource (u.verdict t₁)) := by
  intro u
  have hn := Settings.isPlainName_of_validate hs
  have hparts : (pieces s.chunkSize bytes).flatten = bytes :=
    pieces_flatten (Settings.chunkSize_of_validate hs) bytes
  -- Cut into pieces of the chunk size and put together again, the bytes are those of the file.
  have hupload : yields (uploadAll ⟨token⟩ info (pieces s.chunkSize bytes) id now)
      (start s t .empty) = .ok (⟨u.resource, 0⟩, awaiting s t₁ u) := by
    rw [uploadAll_yields htoken hvalid hplain hfree (fun _ => ne_nil_of_mem_pieces)
      (hparts.symm ▸ hsome), yields_of_ok hreceived]
    rfl
  have hversion : 1 ≤ Nat.pow 2 32 - 1 := by decide
  have hsound : (u.record now).Sound := ⟨hversion, hnow, hnow⟩
  obtain ⟨t', htold⟩ := concluded_of_save htoken hn rfl hsound hsaved
  have hyields : yields (runDeploy s account archive owner ⟨token⟩ id now) t = _ :=
    runDeploy_yields hread hinfo hstart
  rw [hupload, Failing.mapError_ok, Failing.ok_bind, htold] at hyields
  rw [Command.deploy_report, hyields]
  rfl

/-- What is told of a file that is to be uploaded names its account and, at the end of its path, the
file. -/
theorem uploadInfo_ok {account archive : String} {owner : Option String} {bytes : List UInt8}
    {info : ResourceInfo} (h : uploadInfo account archive owner bytes = .ok info) :
    info.account = ⟨account⟩ ∧ Path.fileName? archive = some info.fileName ∧
      info.owner = owner.map (⟨·⟩) := by
  simp only [uploadInfo] at h
  split at h
  · cases h
  next name hname =>
    cases h
    exact ⟨rfl, hname, rfl⟩

/-- A file is checked as it is deployed: a check of it in the namespace of an account and its
deployment for that account, which ask for the same owner, exit alike; they list the same programs
in the same order; and a deployment fails with the text of the fault that the check finds. This is
so wherever the file can be received and the record of its upload saved, provided that a pool of the
size that the settings ask for can be started. Settings may ask for more: then the check is as
before, and the deployment dies, which exits as a failure and says nothing. -/
theorem checks_as_it_deploys {deploy verify : Invocation} {account archive token : String}
    {owner : Option String} {s s' : Settings} {t t₁ : FileTree} {bytes : List UInt8}
    {info : ResourceInfo} (id id' : Ulid) {now : Timestamp} (now' : Timestamp)
    (deploys : deploy.command = .deploy account archive owner token)
    (verifies : verify.command = .verify archive account owner)
    (chosen : deploy.settings t = .ok s) (chosen' : verify.settings t = .ok s')
    (holds : t.read archive = .ok bytes) (nonempty : bytes ≠ [])
    (described : uploadInfo account archive owner bytes = .ok info)
    (plain : Path.isPlainName info.fileName = true) (free : s.isReserved info.fileName = false)
    (valid : info.account.isValid = true) (asks : Token.isBlank ⟨token⟩ = false)
    (clock : now.Sound)
    (received : s.receive info.account info.fileName (pieces s.chunkSize bytes) t = .ok () t₁)
    (saved : (start s t₁ .empty).records.Takes
      ((s.received info (Token.principal ⟨token⟩) id now).recorded now t₁) t₁) :
    let deployed := (deploy.run id now t).1
    let verified := (verify.run id' now' t).1
    (canStart s = true →
      (deployed.code = 0 ↔ verified.code = 0) ∧
      (deployed.code = 0 → ∃ (o : DeployOutcome) (d : Deployable),
        deployed = { output := showOutcome deploy.json o } ∧ o.status = .of .deployed ∧
          verified = { output := showVerified verify.json d } ∧
          o.programs.map (·.2) = d.spec.programNames) ∧
      ∀ f, runVerify archive account owner t = .error (.verification f) →
        verified = failure (.verification f) ∧
          ∃ o : DeployOutcome,
            deployed = outcomeReport deploy.json o ∧ o.status = .failed f.message) ∧
    (canStart s = false → deployed.code ≠ 0 ∧ deployed.output = "" ∧ deployed.error = none) ∧
    verified = reportOf (showVerified verify.json) (runVerify archive account owner t) := by
  intro deployed verified
  have hverified : verified =
      reportOf (showVerified verify.json) (runVerify archive account owner t) := by
    simp only [verified, Invocation.run, chosen', verifies, Command.run]
  refine ⟨fun hstart => ?_, fun hstart => ?_, hverified⟩
  · have hs : s.validate = .ok () := Invocation.validate_of_settings chosen
    obtain ⟨haccount, hnamed, howner⟩ := uploadInfo_ok described
    let u := s.received info (Token.principal ⟨token⟩) id now
    have hdeployed :
        deployed = outcomeReport deploy.json (.ofResult u.resource (u.verdict t₁)) := by
      simp only [deployed, Invocation.run, chosen, deploys]
      exact deploy_tells deploy.json id hs hstart holds nonempty described plain free valid asks
        clock received saved
    -- what was received is what the check reads, under the same name
    have hparts : (pieces s.chunkSize bytes).flatten = bytes :=
      pieces_flatten (Settings.chunkSize_of_validate hs) bytes
    have hread : t₁.read u.job.archive = .ok bytes :=
      hparts ▸ Settings.read_of_receive plain (hparts.symm ▸ nonempty) received
    have hname : Path.fileName? u.job.archive = Path.fileName? archive :=
      (Path.fileName?_join (Path.endsFirmly_join s.archiveDir valid) plain).trans hnamed.symm
    have hconcurs : Concurs (runVerify archive u.job.account.name owner t) (u.verdict t₁) :=
      .of_read howner hname holds hread
    rw [show u.job.account = ⟨account⟩ from haccount] at hconcurs
    rw [hdeployed, hverified]
    exact hconcurs.reports deploy.json verify.json u.resource
  · have hdied : deployed = failure .died := by
      simp only [deployed, Invocation.run, chosen, deploys, Command.run,
        runDeploy_of_died holds described hstart]
    rw [hdied]
    exact ⟨CommandFault.code_ne_zero .died, rfl, rfl⟩

namespace Sample

/-- A descriptor with a program. -/
def unsent : List UInt8 := Utf8.encode
  "\x7b\"name\":\"app\",\"mapreduce\":\x7b\"count\":\x7b\"name\":\"count\",\"type\":\"map_reduce\"\x7d\x7d\x7d"

/-- The files with it, before it is uploaded. -/
def unsentFiles : FileTree := finalState (Files.write "app.json" unsent) .empty

/-- Its deployment. -/
def deploying : Invocation :=
  { archiveDir := some "root", command := .deploy "acme" "app.json" none "alice" }

/-- What is told of the descriptor of the account. -/
def described (bytes : List UInt8) : ResourceInfo :=
  { account := account, fileName := "app.json", size := bytes.length }

/-- The files after its upload and the record of that, if both can be stored. -/
def readied (s : Settings) (t : FileTree) : Option (FileTree × FileTree) := do
  let r ← (yields (s.receive account "app.json" (pieces s.chunkSize unsent)) t).toOption
  let record := (s.received (described unsent) "alice" ⟨0⟩ now).recorded now r.2
  let r' ← (yields ((start s r.2 .empty).records.save record) r.2).toOption
  return (r.2, r'.2)

/-- Then the file can be received, and the record saved. -/
theorem of_readied {s : Settings} {t : FileTree} (h : (readied s t).isSome = true) :
    ∃ t₁, s.receive account "app.json" (pieces s.chunkSize unsent) t = .ok () t₁ ∧
      (start s t₁ .empty).records.Takes ((s.received (described unsent) "alice" ⟨0⟩ now).recorded
        now t₁) t₁ := by
  obtain ⟨r, hr⟩ := Option.isSome_iff_exists.1 h
  obtain ⟨⟨⟨⟩, t₁⟩, hfirst, hr⟩ := Option.bind_eq_some_iff.1 hr
  obtain ⟨⟨⟨⟩, t₂⟩, hsecond, -⟩ := Option.bind_eq_some_iff.1 hr
  exact ⟨t₁, eq_ok_of_yields (Failing.eq_ok_of_toOption hfirst),
    t₂, eq_ok_of_yields (Failing.eq_ok_of_toOption hsecond)⟩

/-- The file with the descriptor holds it. -/
theorem holds_unsent : unsentFiles.read "app.json" = .ok unsent :=
  Failing.eq_ok_of_toOption (by decide +kernel)

/-- A check of it. -/
def checking : Invocation := { json := true, command := .verify "app.json" "acme" none }

/-- Settings that can be used, with a queue that is larger than any. -/
def oversized : Settings := { settings with queueCapacity := Nat.pow 2 62 }

/-- The files with a text that chooses them. -/
def oversizedFiles : FileTree :=
  finalState (Files.write "fabric.toml"
    (Utf8.encode "archive_dir = 'root'\nqueue_capacity = 4611686018427387904")) unsentFiles

/-- The check of the descriptor with these settings. -/
def checkingToo : Invocation := { checking with config := some "fabric.toml" }

/-- Its deployment with these settings. -/
def dying : Invocation := { deploying with archiveDir := none, config := some "fabric.toml" }

end Sample

open Sample in
/-- A descriptor that passes the check is deployed. -/
theorem checked_program_is_deployed :
    (checking.run ⟨0⟩ now unsentFiles).1.code = 0 ∧
      (deploying.run ⟨0⟩ now unsentFiles).1.code = 0 := by
  have hchecked : (checking.run ⟨0⟩ now unsentFiles).1.code = 0 := by decide +kernel
  have hready : (readied settings unsentFiles).isSome = true := by decide +kernel
  obtain ⟨t₁, hreceived, hsaved⟩ := of_readied hready
  have hclock : now.Sound := ⟨by decide, .inl (by decide), by decide⟩
  have hdeploys : deploying.command = .deploy "acme" "app.json" none "alice" := rfl
  have hverifies : checking.command = .verify "app.json" "acme" none := rfl
  have hchosen : deploying.settings unsentFiles = .ok settings := rfl
  have hchosen' : checking.settings unsentFiles = .ok {} := rfl
  have hagree := checks_as_it_deploys ⟨0⟩ ⟨0⟩ now hdeploys hverifies hchosen hchosen' holds_unsent
    (by decide +kernel) rfl (by decide +kernel) (by decide +kernel) (by decide +kernel)
    (by decide +kernel) hclock hreceived hsaved
  exact ⟨hchecked, (hagree.1 rfl).1.2 hchecked⟩

open Sample in
/-- Settings that can be used ask for a queue that there cannot be: the descriptor passes the check,
and all that its deployment does to files would succeed, yet the program dies. -/
theorem oversized_queue_dies :
    oversized.validate = .ok () ∧ dying.settings oversizedFiles = .ok oversized ∧
      oversizedFiles.read "app.json" = .ok unsent ∧
      (readied oversized oversizedFiles).isSome = true ∧
      (checkingToo.run ⟨0⟩ now oversizedFiles).1.code = 0 ∧
      (dying.run ⟨0⟩ now oversizedFiles).1.code ≠ 0 :=
  ⟨rfl, Failing.eq_ok_of_toOption (by decide +kernel),
    Failing.eq_ok_of_toOption (by decide +kernel),
    by decide +kernel, by decide +kernel, by decide +kernel⟩

end Deployment
