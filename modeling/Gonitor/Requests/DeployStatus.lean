import Gonitor.Framework.ProgramTrace
import Gonitor.Requests.Guarantees

/-!
# The Status of a Deployment

A deployment sends eight commands to the remote host and goes on when one of them fails.  What it
then tells the operator is decided by the error of `executeDeployCommands`, and that function has no
error to return: it writes the failures into the log and forgets them.

The results of the commands are those of a trace, so they can be any texts and any errors.

## Main Results

- `deployNode_reports`, `deployNewNode_reports`: a deployment that answers with a report has sent
  every command, and its log has every result.
- `deployment_status_iff`: its status is truthful exactly if no command has failed.
- `failed_deployment_succeeds`: a deployment whose commands all fail is a success.
-/

namespace Gonitor.Requests

open Gonitor.Model Gonitor.Server Gonitor.Controller Gonitor.Deploy AtomicProgram

/-! ## The results of the commands -/

/-- The output of a remote command and, if it failed, its error. -/
abbrev SSHResult := String × Option String

/-- The commands are sent one after the other, with these results. -/
def issued (steps : List Command) (results : List SSHResult) : Trace Op Op.Res :=
  List.zipWith (fun step result => ⟨.world (.runSSHCommand step.cmd), result⟩) steps results

/-- What the log has of them. -/
def logged (steps : List Command) (results : List SSHResult) : List DeployStep :=
  List.zipWith (fun step result => ⟨step.desc, trimSpace result.1, result.2⟩) steps results

/-- In the course of the trace the commands are sent, with these results. -/
structure IssuedIn (steps : List Command) (results : List SSHResult) (tr : Trace Op Op.Res) :
    Prop where
  complete : results.length = steps.length
  within : ∃ before after, tr = before ++ issued steps results ++ after

/-- Each result is the answer to a command. -/
theorem IssuedIn.exists_mem {steps : List Command} {results : List SSHResult}
    {tr : Trace Op Op.Res} (h : IssuedIn steps results tr) {result : SSHResult}
    (hmem : result ∈ results) :
    ∃ step ∈ steps, (⟨.world (.runSSHCommand step.cmd), result⟩ : Σ o : Op, Op.Res o) ∈ tr := by
  obtain ⟨hlength, before, after, rfl⟩ := h
  obtain ⟨n, hn, rfl⟩ := List.getElem_of_mem hmem
  have hn' : n < steps.length := hlength ▸ hn
  refine ⟨steps[n], List.getElem_mem hn', ?_⟩
  have hget : (issued steps results)[n]? =
      some ⟨.world (.runSSHCommand steps[n].cmd), results[n]⟩ := by
    simp [issued, hn, hn']
  have hissued := List.mem_of_getElem? hget
  simp [hissued]

/-- The loop of `executeDeployCommands` sends every command, whatever becomes of the others. -/
theorem runDeployCommands_ends {steps : List Command} {tr : Trace Op Op.Res}
    {log : List DeployStep} (h : (runDeployCommands steps).Ends tr log) :
    ∃ results : List SSHResult, results.length = steps.length ∧ tr = issued steps results ∧
      log = logged steps results := by
  induction steps generalizing tr log with
  | nil =>
    obtain ⟨rfl, rfl⟩ := Prog.Ends.of_pure h
    exact ⟨[], rfl, rfl, rfl⟩
  | cons step steps ih =>
    obtain ⟨result, rest, rfl, hrest⟩ := Prog.Ends.of_call_bind h
    obtain ⟨log', tr', last, rfl, htail, hlast⟩ := Prog.Ends.bind hrest
    obtain ⟨rfl, rfl⟩ := Prog.Ends.of_pure hlast
    obtain ⟨results, hlength, rfl, rfl⟩ := ih htail
    exact ⟨result :: results, by simp [hlength], by simp [issued], rfl⟩

/-- What a report says of the commands, whatever their results are. -/
structure Reports (steps : List Command) (tr : Trace Op Op.Res) (report : DeployReport) :
    Prop where
  log : ∃ results, IssuedIn steps results tr ∧ report.deployLog = logged steps results
  status : report.status = "success"
  error : report.error = none

/-! ## The two deployments -/

section Deployments

variable {ext : Externals} {tr : Trace Op Op.Res} {resp : Response} {report : DeployReport}

/-- The commands of a deployment of the node to the path of the form. -/
def commandsFor (ext : Externals) (form : SSHForm) (node : Node) : List Command :=
  deployCommands ext.httpHost ext.httpPost (deployPath form.installPath) node

/-- The end of both deployments. -/
theorem deployAnswer_reports {installPath : String} {node shown : Node}
    (before : Trace Op Op.Res) {during after : Trace Op Op.Res}
    {deployed : List DeployStep × Option String} {completed warned : String}
    {sysInfo : List (String × String)}
    (hcommands : (executeDeployCommands ext installPath node).Ends during deployed)
    (htr : tr = before ++ (during ++ after))
    (hanswer : .response resp =
      deployAnswer completed warned shown sysInfo deployed.1 deployed.2)
    (hdata : resp.data = .deployed report) :
    Reports (deployCommands ext.httpHost ext.httpPost installPath node) tr report ∧
      report.node = shown := by
  obtain ⟨log, tr₁, tr₂, rfl, hrun, hpure⟩ := Prog.Ends.bind hcommands
  -- the error of the commands is nil
  obtain ⟨rfl, rfl⟩ := Prog.Ends.of_pure hpure
  obtain ⟨results, hlength, rfl, rfl⟩ := runDeployCommands_ends hrun
  simp only [deployAnswer, Reply.response.injEq] at hanswer
  subst hanswer
  simp only [success, Data.deployed.injEq] at hdata
  subst hdata
  refine ⟨⟨⟨results, ⟨hlength, before, after, ?_⟩, rfl⟩, rfl, rfl⟩, rfl⟩
  simp [htr]

theorem deployNodeWith_reports {caller : Caller} {form : DeployForm}
    (h : (deployNodeWith ext caller form).Ends tr (.response resp))
    (hdata : resp.data = .deployed report) :
    Reports (commandsFor ext form.toSSHForm report.node) tr report := by
  obtain ⟨r, tr₁, rfl, h₁⟩ := Prog.Ends.of_call_bind h
  cases r with
  | error err =>
    obtain ⟨-, heq⟩ := Prog.Ends.of_pure h₁
    simp_all [error]
  | ok nodeModel =>
    dsimp only at h₁
    split at h₁
    · obtain ⟨-, heq⟩ := Prog.Ends.of_pure h₁
      simp_all [error]
    · obtain ⟨r, tr₂, rfl, h₂⟩ := Prog.Ends.of_call_bind h₁
      cases r with
      | error err =>
        obtain ⟨-, heq⟩ := Prog.Ends.of_pure h₂
        simp_all [error]
      | ok _ =>
        obtain ⟨sysInfo, info, tr₃, rfl, -, h₃⟩ := Prog.Ends.bind h₂
        obtain ⟨deployed, during, tr₄, rfl, hcommands, h₄⟩ := Prog.Ends.bind h₃
        obtain ⟨saved, tr₅, rfl, h₅⟩ := Prog.Ends.of_call_bind h₄
        obtain ⟨-, audit, last, rfl, -, h₆⟩ := Prog.Ends.bind h₅
        obtain ⟨rfl, hanswer⟩ := Prog.Ends.of_pure h₆
        obtain ⟨hreports, hnode⟩ :=
          deployAnswer_reports (_ :: _ :: info) hcommands rfl hanswer hdata
        rw [hnode]
        -- the commands have been written for the row as it was read; its name and key are the same
        exact hreports

theorem deployNewNodeWith_reports {caller : Caller} {form : DeployNewForm}
    (h : (deployNewNodeWith ext caller form).Ends tr (.response resp))
    (hdata : resp.data = .deployed report) :
    Reports (commandsFor ext form.toSSHForm report.node) tr report := by
  obtain ⟨r, tr₁, rfl, h₁⟩ := Prog.Ends.of_call_bind h
  cases r with
  | ok node =>
    obtain ⟨-, heq⟩ := Prog.Ends.of_pure h₁
    simp_all [error]
  | error err =>
    obtain ⟨r, tr₂, rfl, h₂⟩ := Prog.Ends.of_call_bind h₁
    cases r with
    | error err =>
      obtain ⟨-, heq⟩ := Prog.Ends.of_pure h₂
      simp_all [error]
    | ok _ =>
      obtain ⟨sysInfo, info, tr₃, rfl, -, h₃⟩ := Prog.Ends.bind h₂
      obtain ⟨secretKey, tr₄, rfl, h₄⟩ := Prog.Ends.of_call_bind h₃
      obtain ⟨r, tr₅, rfl, h₅⟩ := Prog.Ends.of_call_bind h₄
      cases r with
      | error err =>
        obtain ⟨-, heq⟩ := Prog.Ends.of_pure h₅
        simp_all [error]
      | ok nodeModel =>
        obtain ⟨deployed, during, tr₆, rfl, hcommands, h₆⟩ := Prog.Ends.bind h₅
        obtain ⟨-, audit, last, rfl, -, h₇⟩ := Prog.Ends.bind h₆
        obtain ⟨rfl, hanswer⟩ := Prog.Ends.of_pure h₇
        obtain ⟨hreports, hnode⟩ :=
          deployAnswer_reports (_ :: _ :: (info ++ [_, _])) hcommands
            (by simp only [List.cons_append, List.append_assoc, List.nil_append]; rfl) hanswer hdata
        rw [hnode]
        exact hreports

/-- A report of `DeployNode`: every command has been sent, and the error is nil. -/
theorem deployNode_reports {caller : Caller} {form : DeployForm}
    (h : (Controller.deployNode ext caller (.ok form)).Ends tr (.response resp))
    (hdata : resp.data = .deployed report) :
    Reports (commandsFor ext form.toSSHForm report.node) tr report := by
  unfold Controller.deployNode at h
  dsimp only at h
  -- the form is refused, or the deployment begins
  repeat' split at h
  all_goals first
    | exact deployNodeWith_reports h hdata
    | obtain ⟨-, heq⟩ := Prog.Ends.of_pure h
      simp_all [error]

/-- A report of `DeployNewNode`, likewise. -/
theorem deployNewNode_reports {caller : Caller} {form : DeployNewForm}
    (h : (Controller.deployNewNode ext caller (.ok form)).Ends tr (.response resp))
    (hdata : resp.data = .deployed report) :
    Reports (commandsFor ext form.toSSHForm report.node) tr report := by
  unfold Controller.deployNewNode at h
  dsimp only at h
  repeat' split at h
  all_goals first
    | exact deployNewNodeWith_reports h hdata
    | obtain ⟨-, heq⟩ := Prog.Ends.of_pure h
      simp_all [error]

/-- The requests that deploy, each with its form. -/
inductive Deploys : SSHForm → Request → Prop
  | existing (form : DeployForm) : Deploys form.toSSHForm (.deployNode (.ok form))
  | new (form : DeployNewForm) : Deploys form.toSSHForm (.deployNewNode (.ok form))

theorem Deploys.reports {form : SSHForm} {req : Request} (hreq : Deploys form req)
    {caller : Caller} (h : (req.handle ext caller).Ends tr (.response resp))
    (hdata : resp.data = .deployed report) : Reports (commandsFor ext form report.node) tr report := by
  cases hreq with
  | existing form => exact deployNode_reports h hdata
  | new form => exact deployNewNode_reports h hdata

end Deployments

/-! ## Truthful reports -/

/-- The error names the step. -/
def Names (text : String) (step : Command) : Prop := step.desc.toList <:+: text.toList

/-- The status is the one of the results: a success exactly if every command has succeeded, and
    otherwise a partial one, with an error that names a step that has failed. -/
structure TruthfulStatus (steps : List Command) (results : List SSHResult)
    (report : DeployReport) : Prop where
  success_iff : report.status = "success" ↔ ∀ result ∈ results, result.2 = none
  names_failed : ∀ result ∈ results, result.2 ≠ none → report.status = "partial" ∧
    ∃ text, report.error = some text ∧ text ≠ "" ∧
      ∃ x ∈ steps.zip results, x.2.2 ≠ none ∧ Names text x.1

/-- The status does not depend on the results. -/
theorem Reports.truthful_iff {steps : List Command} {results : List SSHResult}
    {tr : Trace Op Op.Res} {report : DeployReport} (h : Reports steps tr report) :
    TruthfulStatus steps results report ↔ ∀ result ∈ results, result.2 = none := by
  constructor
  · intro htruthful
    exact htruthful.success_iff.mp h.status
  · intro hall
    exact ⟨by simpa [h.status] using hall,
      fun result hmem hfailed => absurd (hall result hmem) hfailed⟩

/-! ## Runs of a deployment -/

/-- The form of a deployment. -/
def smallDeployForm : DeployForm :=
  { sshHost := "10.0.0.1", sshUser := "root", sshPass := "root", nodeID := 1 }

/-- The row of its node. -/
def smallNode : Node := { toStamps := ⟨1, 0, 0, none⟩, name := "edge", secretKey := "k" }

/-- A master that has the node, and a remote host on which every command comes to `result`. -/
def deployHost (result : SSHResult) : (o : Op) → Option (Op.Res o)
  | .db (.findNode _ _) => some (.ok smallNode)
  | .db (.saveNode _) => some (.ok ())
  | .db (.userInfo _) => some (.error .recordNotFound)
  | .world (.sshDial _ _ _ _) => some (.ok ())
  | .world (.runSSHCommand _) => some result
  | _ => none

/-- A deployment to a host that answers every command with `result`. -/
theorem smallDeployment_runs (result : SSHResult) : ∃ tr report results,
    ((Request.deployNode (.ok smallDeployForm)).handle plainExternals ⟨0, ""⟩).Ends tr
      (.response (success "deploy success" (.deployed report))) ∧
    IssuedIn (commandsFor plainExternals smallDeployForm.toSSHForm report.node) results tr ∧
    results = List.replicate 8 result := by
  have hperformed : ∃ tr report,
      ((Request.deployNode (.ok smallDeployForm)).handle plainExternals ⟨0, ""⟩).answered
        (deployHost result) =
        some (tr, .response (success "deploy success" (.deployed report))) := ⟨_, _, rfl⟩
  obtain ⟨tr, report, hperformed⟩ := hperformed
  have hends := Prog.ends_of_answered hperformed
  obtain ⟨results, hissued, -⟩ := ((Deploys.existing smallDeployForm).reports hends rfl).log
  refine ⟨tr, report, results, hends, hissued, List.eq_replicate_iff.mpr ⟨hissued.complete, ?_⟩⟩
  intro r hr
  -- the host has answered the command so
  obtain ⟨step, -, hmem⟩ := hissued.exists_mem hr
  simpa [deployHost, eq_comm] using Prog.answers_of_answered hperformed _ hmem

/-- **The status of a deployment**: in every run of a deployment that answers with a report, every
    command has been sent, and the status is truthful exactly if none of them has failed. -/
theorem deployment_status_iff {ext : Externals} {caller : Caller} {form : SSHForm} {req : Request}
    {tr : Trace Op Op.Res} {resp : Response} {report : DeployReport} (hreq : Deploys form req)
    (h : (req.handle ext caller).Ends tr (.response resp)) (hdata : resp.data = .deployed report) :
    (∃ results, IssuedIn (commandsFor ext form report.node) results tr) ∧
    ∀ results, IssuedIn (commandsFor ext form report.node) results tr →
      (TruthfulStatus (commandsFor ext form report.node) results report ↔
        ∀ result ∈ results, result.2 = none) := by
  have hreports := hreq.reports h hdata
  obtain ⟨results, hissued, -⟩ := hreports.log
  exact ⟨⟨results, hissued⟩, fun results _ => hreports.truthful_iff⟩

/-- A deployment all of whose commands succeed is rightly a success. -/
theorem deployment_status_iff_allWell : ∃ tr report results,
    ((Request.deployNode (.ok smallDeployForm)).handle plainExternals ⟨0, ""⟩).Ends tr
      (.response (success "deploy success" (.deployed report))) ∧
    TruthfulStatus (commandsFor plainExternals smallDeployForm.toSSHForm report.node)
      results report := by
  obtain ⟨tr, report, results, h, hissued, hresults⟩ := smallDeployment_runs ("", none)
  obtain ⟨-, hiff⟩ := deployment_status_iff (.existing smallDeployForm) h rfl
  exact ⟨tr, report, results, h, (hiff _ hissued).mpr (by simp [hresults])⟩

/-- A deployment none of whose commands succeeds is a success as well. -/
theorem failed_deployment_succeeds : ¬ ∀ (caller : Caller) (form : SSHForm) (req : Request)
    (tr : Trace Op Op.Res) (resp : Response) (report : DeployReport) (results : List SSHResult),
    Deploys form req → (req.handle plainExternals caller).Ends tr (.response resp) →
    resp.data = .deployed report →
    IssuedIn (commandsFor plainExternals form report.node) results tr →
    TruthfulStatus (commandsFor plainExternals form report.node) results report := by
  intro hall
  obtain ⟨tr, report, results, h, hissued, hresults⟩ :=
    smallDeployment_runs ("", some "command failed: exit status 1")
  have htruthful := hall _ _ _ _ _ _ _ (.existing smallDeployForm) h rfl hissued
  have hreports := (Deploys.existing smallDeployForm).reports h rfl
  have hnone := hreports.truthful_iff.mp htruthful
  simp [hresults] at hnone

end Gonitor.Requests
