import Gonitor.Deploy.Commands
import Gonitor.Framework.PosixShell
import Gonitor.Server.Operations

/-!
# Command Injection

Three texts are spliced into the deployment commands: the install path, which
`validateInstallPath` has checked, and the name and the key of the node, which only have to be
there.  The remote shell should read each command as its template says, whatever these are.

A checked path may begin with a hyphen, and then it is read as an option.  A name may have
several lines; one that is `GONITOR_EOF` ends the configuration file, and what follows is run as
commands.

## Main Results

- `deployment_reads_as_intended_iff`: which paths and nodes the shell reads as intended.
- `name_ends_hereDoc`: the name of a node that runs a command on the remote machine.
-/

namespace Gonitor.Deploy

open Gonitor.Model PosixShell

/-! ## What the templates say -/

/-- The delimiter of the here-documents. -/
def delimiter : Text := "GONITOR_EOF".toList

/-- The address of the master, as `executeDeployCommands` composes it. -/
def masterAddress (httpHost httpPost : String) : String := "http://" ++ httpHost ++ ":" ++ httpPost

/-- `sudo …` with its errors thrown away, `|| true` -/
def quietly (operands : List String) : Item :=
  .list [⟨"sudo".toList, [], operands.map String.toList, [.output ['2'] "/dev/null".toList]⟩,
    ⟨"true".toList, [], [], []⟩]

/-- The structure that the eight commands are meant to have: the path is part of one operand, or
    of the name of one file, and a here-document has all lines of its body. -/
def intendedReadings (httpHost httpPost installPath : String) (node : Node) : List (List Item) :=
  let path := installPath.toList
  [[.list [⟨"mkdir".toList, ["-p".toList], [path], []⟩]],
   [.list [⟨"mkdir".toList, ["-p".toList], [path ++ "/tmp/log".toList], []⟩]],
   [.list [⟨"cat".toList, [], [],
      [.output ['1'] (path ++ "/config.yml".toList), .hereDoc ['0'] delimiter true]⟩],
    .hereDoc (bodyLines (configBody installPath httpPost (masterAddress httpHost httpPost)
      node.secretKey node.name).toList)],
   [.list [⟨"cat".toList, [], [],
      [.output ['1'] "/tmp/gonitor-agent.service".toList, .hereDoc ['0'] delimiter true]⟩],
    .hereDoc (bodyLines (serviceBody installPath).toList)],
   [quietly ["cp", "/tmp/gonitor-agent.service", "/etc/systemd/system/gonitor-agent.service"]],
   [quietly ["systemctl", "daemon-reload"]],
   [quietly ["systemctl", "enable", "gonitor-agent.service"]],
   [.list [⟨"ls".toList, ["-la".toList], [path ++ "/".toList], []⟩]]]

/-- What the shell reads in the eight commands. -/
def readings (httpHost httpPost installPath : String) (node : Node) : List (Option (List Item)) :=
  (deployCommands httpHost httpPost installPath node).map fun command => read command.cmd.toList

/-! ## Checked paths -/

theorem isPlain_of_safe {c : Char} (h : isSafePathChar c = true) : isPlain c = true := by
  simp only [isSafePathChar, Bool.or_eq_true] at h
  simp only [isPlain, Bool.or_eq_true]
  grind

/-- What `validateInstallPath` accepts is not empty and has safe characters only. -/
theorem safe_of_validated {path : String} (h : validateInstallPath path = none) :
    path.toList ≠ [] ∧ ∀ c ∈ path.toList, isSafePathChar c = true := by
  unfold validateInstallPath at h
  split at h
  · cases h
  · rename_i hne
    split at h
    · cases h
    · rename_i hsafe
      have hall : path.toList.all isSafePathChar = true := by simpa using hsafe
      exact ⟨fun hnil => hne (String.toList_eq_nil_iff.mp hnil), List.all_eq_true.mp hall⟩

/-- A path that `validateInstallPath` accepts is a plain word. -/
theorem isPlainWord_of_validated {path : String} (h : validateInstallPath path = none) :
    IsPlainWord path.toList := by
  obtain ⟨hne, hsafe⟩ := safe_of_validated h
  constructor
  · exact hne
  · apply List.all_eq_true.mpr
    intro c hc
    exact isPlain_of_safe (hsafe c hc)

/-! ## The bodies of the here-documents -/

/-- `configBody`, in parts that end with a line. -/
def configTexts (path post master key name : Text) : List Text :=
  ["App:\n".toList ++ ("  Debug: false\n".toList ++ "  DbLog: false\n".toList),
   "  LogFile: ".toList ++ (path ++ "/tmp/run.log\n".toList),
   "\n".toList ++ "Script:\n".toList,
   "  Folder: ".toList ++ (path ++ "/script\n".toList),
   "  LogFolder: ".toList ++ (path ++ "/tmp/log\n".toList),
   "\n".toList ++ "Sqlite:\n".toList,
   "  DbPath: ".toList ++ (path ++ "/gonitor.db\n".toList),
   "\n".toList ++ ("HttpServer:\n".toList ++ "  Host: 0.0.0.0\n".toList),
   "  Post: ".toList ++ (post ++ "\n".toList),
   "\n".toList ++ "Agent:\n".toList,
   "  MasterAddress: ".toList ++ (master ++ "\n".toList),
   "  SecretKey: ".toList ++ (key ++ "\n".toList),
   "  NodeName: ".toList ++ (name ++ "\n".toList)]

theorem configBody_toList (path post master key name : String) :
    (configBody path post master key name).toList = (configTexts path.toList post.toList
      master.toList key.toList name.toList).flatten := by
  unfold configBody configTexts
  simp only [String.toList_append, List.flatten_cons, List.flatten_nil, List.append_nil]
  simp only [List.append_assoc]

/-- The same for `serviceBody`. -/
def serviceTexts (path : Text) : List Text :=
  ["[Unit]\n".toList ++ ("Description=Gonitor Agent - Edge Node\n".toList ++
      ("After=network-online.target\n".toList ++ ("Wants=network-online.target\n".toList ++
      ("\n".toList ++ ("[Service]\n".toList ++ "Type=simple\n".toList))))),
   "WorkingDirectory=".toList ++ (path ++ "\n".toList),
   "ExecStart=".toList ++ (path ++ "/gonitor start\n".toList),
   "Restart=always\n".toList ++ ("RestartSec=5\n".toList ++ ("WatchdogSec=60\n".toList ++
      ("StandardOutput=journal\n".toList ++ ("StandardError=journal\n".toList ++
      ("KillMode=mixed\n".toList ++ ("KillSignal=SIGTERM\n".toList ++
      ("TimeoutStopSec=30\n".toList ++ ("\n".toList ++ ("[Install]\n".toList ++
      "WantedBy=multi-user.target\n".toList)))))))))]

theorem serviceBody_toList (path : String) :
    (serviceBody path).toList = (serviceTexts path.toList).flatten := by
  unfold serviceBody serviceTexts
  simp only [String.toList_append, List.flatten_cons, List.flatten_nil, List.append_nil]
  simp only [List.append_assoc]

/-- In a part that begins with a text of the template, the delimiter can only be one of the later
    lines of the value. -/
theorem delimiter_mem_part {label suffix : Text} (hnl : '\n' ∉ label)
    (hlabel : ¬ label <+: delimiter) (hsuffix : ['\n'] <:+ suffix) (value : Text) :
    delimiter ∈ bodyLines (label ++ (value ++ suffix)) ↔
      delimiter ∈ (lines (value ++ suffix.dropLast)).tail := by
  obtain ⟨suffix, rfl⟩ := hsuffix
  rw [← List.append_assoc, ← List.append_assoc, bodyLines_concat, List.dropLast_concat,
    List.append_assoc]
  exact mem_lines_append hnl hlabel _

theorem not_mem_tail_lines {a line : Text} (h : '\n' ∉ a) : line ∉ (lines a).tail := by
  rw [lines_of_not_mem h]
  exact List.not_mem_nil

/-- A path of one line does not bring it in. -/
theorem delimiter_not_mem_path {path : Text} (hpath : '\n' ∉ path) (label suffix : Text)
    (hnl : '\n' ∉ label) (hlabel : ¬ label <+: delimiter) (hsuffix : ['\n'] <:+ suffix)
    (hrest : '\n' ∉ suffix.dropLast) : delimiter ∉ bodyLines (label ++ (path ++ suffix)) := by
  rw [delimiter_mem_part hnl hlabel hsuffix]
  apply not_mem_tail_lines
  simp [hpath, hrest]

/-- Only the values that may have several lines can bring the delimiter into the configuration. -/
theorem delimiter_mem_config {path post master key name : Text} (hpath : '\n' ∉ path)
    (hkey : '\n' ∉ key) :
    delimiter ∈ bodyLines (configTexts path post master key name).flatten ↔
      delimiter ∈ (lines post).tail ∨ delimiter ∈ (lines master).tail ∨
        delimiter ∈ (lines name).tail := by
  have hpart := delimiter_not_mem_path hpath
  have hvalue : ∀ label value : Text, '\n' ∉ label → ¬ label <+: delimiter →
      (delimiter ∈ bodyLines (label ++ (value ++ "\n".toList)) ↔
        delimiter ∈ (lines value).tail) := by
    intro label value hnl hlabel
    rw [delimiter_mem_part hnl hlabel (by decide)]
    simp
  have hends : ∀ label value suffix : Text, ['\n'] <:+ suffix →
      ['\n'] <:+ label ++ (value ++ suffix) := fun label value suffix h =>
    (h.trans (List.suffix_append _ _)).trans (List.suffix_append _ _)
  rw [mem_bodyLines_flatten]
  · simp only [configTexts, List.mem_cons, List.not_mem_nil, or_false, exists_eq_or_imp,
      exists_eq_left]
    -- the texts of the template
    have happ : delimiter ∉ bodyLines ("App:\n".toList ++
        ("  Debug: false\n".toList ++ "  DbLog: false\n".toList)) := by decide +kernel
    have hscript : delimiter ∉ bodyLines ("\n".toList ++ "Script:\n".toList) := by decide +kernel
    have hsqlite : delimiter ∉ bodyLines ("\n".toList ++ "Sqlite:\n".toList) := by decide +kernel
    have hserver : delimiter ∉ bodyLines ("\n".toList ++
        ("HttpServer:\n".toList ++ "  Host: 0.0.0.0\n".toList)) := by decide +kernel
    have hagent : delimiter ∉ bodyLines ("\n".toList ++ "Agent:\n".toList) := by decide +kernel
    rw [iff_false_intro happ, iff_false_intro hscript, iff_false_intro hsqlite,
      iff_false_intro hserver, iff_false_intro hagent]
    -- the path and the key, which have no newline
    rw [iff_false_intro (hpart "  LogFile: ".toList _ (by decide) (by decide) (by decide) (by decide)),
      iff_false_intro (hpart "  Folder: ".toList _ (by decide) (by decide) (by decide) (by decide)),
      iff_false_intro (hpart "  LogFolder: ".toList _ (by decide) (by decide) (by decide) (by decide)),
      iff_false_intro (hpart "  DbPath: ".toList _ (by decide) (by decide) (by decide) (by decide)),
      hvalue "  SecretKey: ".toList key (by decide) (by decide),
      iff_false_intro (not_mem_tail_lines hkey)]
    -- the values that may have several lines
    rw [hvalue "  Post: ".toList post (by decide) (by decide),
      hvalue "  MasterAddress: ".toList master (by decide) (by decide),
      hvalue "  NodeName: ".toList name (by decide) (by decide)]
    simp only [false_or]
  · simp only [configTexts, List.forall_mem_cons]
    refine ⟨by decide, hends _ _ _ (by decide), by decide, hends _ _ _ (by decide),
      hends _ _ _ (by decide), by decide, hends _ _ _ (by decide), by decide, hends _ _ _ (by decide),
      by decide, hends _ _ _ (by decide), hends _ _ _ (by decide), hends _ _ _ (by decide), ?_⟩
    exact fun _ h => absurd h List.not_mem_nil

/-- Nothing brings it into the systemd unit. -/
theorem delimiter_not_mem_service {path : Text} (hpath : '\n' ∉ path) :
    delimiter ∉ bodyLines (serviceTexts path).flatten := by
  have hpart := delimiter_not_mem_path hpath
  have hends : ∀ label suffix : Text, ['\n'] <:+ suffix → ['\n'] <:+ label ++ (path ++ suffix) :=
    fun label suffix h => (h.trans (List.suffix_append _ _)).trans (List.suffix_append _ _)
  rw [mem_bodyLines_flatten]
  · simp only [serviceTexts, List.mem_cons, List.not_mem_nil, or_false, exists_eq_or_imp,
      exists_eq_left, not_or]
    exact ⟨by decide +kernel, hpart _ _ (by decide) (by decide) (by decide) (by decide),
      hpart _ _ (by decide) (by decide) (by decide) (by decide), by decide +kernel⟩
  · simp only [serviceTexts, List.forall_mem_cons]
    exact ⟨by decide, hends _ _ (by decide), hends _ _ (by decide), by decide,
      fun _ h => absurd h List.not_mem_nil⟩

/-! ## The commands -/

/-- The line that writes a here-document to a file. -/
theorem readLine_cat {file : Text} (h : IsPlainWord file) :
    readLine ("cat > ".toList ++ (file ++ " << 'GONITOR_EOF'".toList)) =
      some [⟨"cat".toList, [], [], [.output ['1'] file, .hereDoc ['0'] delimiter true]⟩] := by
  have hlex : lexFrom {} ("cat > ".toList ++ (file ++ " << 'GONITOR_EOF'".toList)) =
      some ⟨[.word ⟨"cat".toList, false⟩, .great, .word ⟨file, false⟩, .dless],
        some ⟨delimiter, true⟩, .outside⟩ := by
    rw [lexFrom_append]
    show (lexFrom ⟨[.word ⟨"cat".toList, false⟩, .great], none, .outside⟩ (file ++ _)) = _
    rw [lexFrom_append, lexFrom_plain h]
    rfl
  unfold readLine lex
  rw [hlex]
  rfl

/-- A command that writes a body to a file. -/
theorem read_cat_iff {file body : Text} (h : IsPlainWord file) (hbody : ['\n'] <:+ body) :
    read ("cat > ".toList ++ (file ++ (" << 'GONITOR_EOF'\n".toList ++ (body ++ delimiter)))) =
        some [.list [⟨"cat".toList, [], [], [.output ['1'] file, .hereDoc ['0'] delimiter true]⟩],
          .hereDoc (bodyLines body)] ↔
      delimiter ∉ bodyLines body := by
  have hline : '\n' ∉ "cat > ".toList ++ (file ++ " << 'GONITOR_EOF'".toList) := by
    have hfile := newline_not_mem_of_plain h
    rw [List.mem_append, List.mem_append]
    rintro (hl | hl | hl)
    · revert hl
      decide
    · exact hfile hl
    · revert hl
      decide
  rw [← read_hereDoc_eq_iff hline (readLine_cat h) rfl (by decide) hbody]
  have hsplit : " << 'GONITOR_EOF'\n".toList = " << 'GONITOR_EOF'".toList ++ ['\n'] := by decide
  rw [hsplit]
  simp only [List.append_assoc, List.singleton_append]

/-! ## The guarantee -/

/-- What a row that `AddNode`, `EditNode` or `DeployNewNode` stores has of its form and of
    `CreateRandomString(32)`. -/
structure Storable (node : Node) : Prop where
  name_ne : node.name ≠ ""
  key_length : node.secretKey.length = 32
  key_alphanumeric : node.secretKey.toList.all Server.isAlphanumeric = true

theorem Storable.newline_not_mem_key {node : Node} (h : Storable node) :
    '\n' ∉ node.secretKey.toList := fun hmem => by
  have hchar := List.all_eq_true.mp h.key_alphanumeric _ hmem
  revert hchar
  decide

/-- The path does not begin with a hyphen, and none of the values that may have several lines
    has the delimiter among its later ones. -/
def ReadsAsWritten (httpHost httpPost installPath : String) (node : Node) : Prop :=
  installPath.toList.head? ≠ some '-' ∧
    ∀ value ∈ [httpPost, masterAddress httpHost httpPost, node.name],
      delimiter ∉ (lines value.toList).tail

/-- The command that writes the configuration. -/
theorem read_config_iff {httpHost httpPost installPath : String} {node : Node}
    (hpath : IsPlainWord installPath.toList) (hnode : Storable node) :
    read ("cat > ".toList ++ (installPath.toList ++ ("/config.yml << 'GONITOR_EOF'\n".toList ++
        ((configBody installPath httpPost (masterAddress httpHost httpPost) node.secretKey
          node.name).toList ++ delimiter)))) =
      some [.list [⟨"cat".toList, [], [],
          [.output ['1'] (installPath.toList ++ "/config.yml".toList),
            .hereDoc ['0'] delimiter true]⟩],
        .hereDoc (bodyLines (configBody installPath httpPost (masterAddress httpHost httpPost)
          node.secretKey node.name).toList)] ↔
      ∀ value ∈ [httpPost, masterAddress httpHost httpPost, node.name],
        delimiter ∉ (lines value.toList).tail := by
  have hends : ['\n'] <:+ (configBody installPath httpPost (masterAddress httpHost httpPost)
      node.secretKey node.name).toList := by
    unfold configBody
    rw [String.toList_append]
    exact List.IsSuffix.trans (by decide) (List.suffix_append _ _)
  have hfile : IsPlainWord (installPath.toList ++ "/config.yml".toList) := hpath.append (by decide)
  have hcat := read_cat_iff hfile hends
  rw [List.append_assoc] at hcat
  refine hcat.trans ?_
  rw [configBody_toList, delimiter_mem_config (newline_not_mem_of_plain hpath)
    hnode.newline_not_mem_key]
  simp only [List.mem_cons, List.not_mem_nil, or_false, forall_eq_or_imp, forall_eq, not_or]

/-- The command that writes the systemd unit. -/
theorem read_service {installPath : String} (hpath : IsPlainWord installPath.toList) :
    read ("cat > /tmp/gonitor-agent.service << 'GONITOR_EOF'\n".toList ++
        ((serviceBody installPath).toList ++ delimiter)) =
      some [.list [⟨"cat".toList, [], [], [.output ['1'] "/tmp/gonitor-agent.service".toList,
          .hereDoc ['0'] delimiter true]⟩],
        .hereDoc (bodyLines (serviceBody installPath).toList)] := by
  have hends : ['\n'] <:+ (serviceBody installPath).toList := by
    unfold serviceBody
    rw [String.toList_append]
    exact List.IsSuffix.trans (by decide) (List.suffix_append _ _)
  have hfile : IsPlainWord "/tmp/gonitor-agent.service".toList := ⟨by decide, by decide⟩
  have hline : "cat > /tmp/gonitor-agent.service << 'GONITOR_EOF'\n".toList =
      "cat > ".toList ++ ("/tmp/gonitor-agent.service".toList ++ " << 'GONITOR_EOF'\n".toList) := by
    decide
  have hservice : delimiter ∉ bodyLines (serviceBody installPath).toList := by
    rw [serviceBody_toList]
    exact delimiter_not_mem_service (newline_not_mem_of_plain hpath)
  rw [hline, List.append_assoc, List.append_assoc]
  exact (read_cat_iff hfile hends).mpr hservice

/-- `mkdir -p` of a path. -/
theorem read_mkdir {a : Text} (ha : IsPlainWord a) : read ("mkdir -p ".toList ++ a) =
    some [.list [⟨"mkdir".toList, "-p".toList :: (splitArguments [a]).1, (splitArguments [a]).2,
      []⟩]] :=
  read_utility (u := "mkdir".toList) (o := "-p".toList) ⟨by decide, by decide⟩
    ⟨by decide, by decide⟩ ha (by decide) rfl (by decide)

/-- `ls -la` of a path. -/
theorem read_ls {a : Text} (ha : IsPlainWord a) : read ("ls -la ".toList ++ a) =
    some [.list [⟨"ls".toList, "-la".toList :: (splitArguments [a]).1, (splitArguments [a]).2,
      []⟩]] :=
  read_utility (u := "ls".toList) (o := "-la".toList) ⟨by decide, by decide⟩
    ⟨by decide, by decide⟩ ha (by decide) rfl (by decide)

section Commands

variable {httpHost httpPost installPath : String} {node : Node}

/-- Something in front of a suffix leaves the first character of the path. -/
theorem head?_append_path (hpath : IsPlainWord installPath.toList) (suffix : Text) :
    (installPath.toList ++ suffix).head? = installPath.toList.head? := by
  obtain ⟨c, cs, hcons⟩ := List.exists_cons_of_ne_nil hpath.1
  rw [hcons]
  rfl

/-- The second and the third command show what has to be ruled out. -/
theorem readsAsWritten_of_readings (hpath : IsPlainWord installPath.toList) (hnode : Storable node)
    (h : readings httpHost httpPost installPath node =
      (intendedReadings httpHost httpPost installPath node).map some) :
    ReadsAsWritten httpHost httpPost installPath node := by
  have hlog : IsPlainWord (installPath.toList ++ "/tmp/log".toList) := hpath.append (by decide)
  unfold readings deployCommands intendedReadings at h
  simp only [List.map_cons, List.map_nil, String.toList_append, List.cons.injEq, and_true,
    List.append_assoc] at h
  obtain ⟨-, hmkdir, hconfig, -⟩ := h
  refine ⟨fun hdash => ?_, (read_config_iff hpath hnode).mp hconfig⟩
  rw [read_mkdir hlog] at hmkdir
  simp only [Option.some.injEq, List.cons.injEq, Item.list.injEq, Invocation.mk.injEq, true_and,
    and_true] at hmkdir
  -- the second command reads the path as an option
  refine splitArguments_option ((head?_append_path hpath _).trans hdash) ?_ [] hmkdir.1
  rw [List.length_append]
  have hsuffix : "/tmp/log".toList.length = 8 := rfl
  omega

/-- Where it is ruled out, every command is read as intended. -/
theorem readings_of_readsAsWritten (hpath : IsPlainWord installPath.toList) (hnode : Storable node)
    (h : ReadsAsWritten httpHost httpPost installPath node) :
    readings httpHost httpPost installPath node =
      (intendedReadings httpHost httpPost installPath node).map some := by
  have hlog : IsPlainWord (installPath.toList ++ "/tmp/log".toList) := hpath.append (by decide)
  have hslash : IsPlainWord (installPath.toList ++ "/".toList) := hpath.append (by decide)
  obtain ⟨hdash, hvalues⟩ := h
  unfold readings deployCommands intendedReadings
  simp only [List.map_cons, List.map_nil, String.toList_append, List.cons.injEq, and_true,
    List.append_assoc]
  refine ⟨?_, ?_, (read_config_iff hpath hnode).mpr hvalues, read_service hpath,
    by decide +kernel, by decide +kernel, by decide +kernel, ?_⟩
  · rw [read_mkdir hpath, splitArguments_operand hdash]
  · rw [read_mkdir hlog, splitArguments_operand ((head?_append_path hpath _).trans_ne hdash)]
  · rw [read_ls hslash, splitArguments_operand ((head?_append_path hpath _).trans_ne hdash)]

/-- **What the remote shell reads.**  For a checked path and a stored node, the eight commands
    have the structure of their templates if and only if the path does not begin with a hyphen
    and no later line of a spliced value is `GONITOR_EOF`. -/
theorem deployment_reads_as_intended_iff (hpath : validateInstallPath installPath = none)
    (hnode : Storable node) :
    readings httpHost httpPost installPath node =
        (intendedReadings httpHost httpPost installPath node).map some ↔
      ReadsAsWritten httpHost httpPost installPath node :=
  ⟨readsAsWritten_of_readings (isPlainWord_of_validated hpath) hnode,
    readings_of_readsAsWritten (isPlainWord_of_validated hpath) hnode⟩

end Commands

/-! ## Two nodes -/

/-- A node of this name. -/
def nodeNamed (name : String) : Node where
  toStamps := Base.zero
  name := name
  secretKey := "abcdefghijklmnopqrstuvwxyz012345"

/-- An ordinary name and path are read as intended. -/
theorem deployment_reads_as_intended_iff_edge :
    readings "10.0.0.1" "8899" "/opt/gonitor" (nodeNamed "edge") =
      (intendedReadings "10.0.0.1" "8899" "/opt/gonitor" (nodeNamed "edge")).map some :=
  (deployment_reads_as_intended_iff (by decide) ⟨by decide, by decide, by decide⟩).mpr
    ⟨by decide, by decide⟩

/-- A name of three lines ends the configuration with its second one, and its third one is run. -/
theorem name_ends_hereDoc :
    ¬ ∀ httpHost httpPost installPath node, validateInstallPath installPath = none →
      Storable node → readings httpHost httpPost installPath node =
        (intendedReadings httpHost httpPost installPath node).map some := by
  intro hall
  have hpath : validateInstallPath "/opt/gonitor" = none := by decide
  have hnode : Storable (nodeNamed "edge\nGONITOR_EOF\nreboot") :=
    ⟨by decide, by decide, by decide⟩
  have hreads := readsAsWritten_of_readings (isPlainWord_of_validated hpath) hnode
    (hall "10.0.0.1" "8899" "/opt/gonitor" _ hpath hnode)
  exact hreads.2 (nodeNamed "edge\nGONITOR_EOF\nreboot").name (by decide) (by decide)

end Gonitor.Deploy
