import Gonitor.Deploy.Injection
import Gonitor.Framework.FlatYaml

/-!
# The Configuration of an Agent

`executeDeployCommands` writes `config.yml` for the new agent with a format string, and the agent
reads it with `core.InitConfig`, that is with a YAML decoder.  Nothing is quoted in between: the
name of the node is spliced into its line as the operator has typed it.

The decoder is a parameter.  Assumed of it is how it decodes a document of this shape whose values are
plain, and that a name that is not a plain value is never read as its own text in one.

## Main Results

- `configFile_eq`: the file that the remote shell writes is the text of the document.
- `config_reads_back_iff`: the agent gets back what the master has written if and only if the name
  of the node is a literal value.
- `comment_cuts_name`: a name of which the agent reads the first word.
-/

namespace Gonitor.Deploy

open Gonitor.Model FlatYaml

/-! ## The configuration -/

/-- The struct `yoConfig` of `core/config.go`, with the structs of its sections. -/
structure YoConfig.App where
  debug : Bool := false
  dbLog : Bool := false
  logFile : String := ""
  deriving DecidableEq

structure YoConfig.Sqlite where
  dbPath : String := ""
  deriving DecidableEq

structure YoConfig.Database where
  driver : String := ""
  dsn : String := ""
  deriving DecidableEq

structure YoConfig.HttpServer where
  host : String := ""
  post : String := ""
  deriving DecidableEq

structure YoConfig.Script where
  folder : String := ""
  logFolder : String := ""
  deriving DecidableEq

structure YoConfig.WeCom where
  corpId : String := ""
  corpSecret : String := ""
  agentId : String := ""
  deriving DecidableEq

structure YoConfig.Agent where
  masterAddress : String := ""
  secretKey : String := ""
  nodeName : String := ""
  deriving DecidableEq

structure YoConfig where
  app : YoConfig.App := {}
  sqlite : YoConfig.Sqlite := {}
  database : YoConfig.Database := {}
  httpServer : YoConfig.HttpServer := {}
  script : YoConfig.Script := {}
  weCom : YoConfig.WeCom := {}
  agent : YoConfig.Agent := {}
  deriving DecidableEq

/-- A configuration without a database of its own has the one of `Sqlite`. -/
def YoConfig.withDatabase (config : YoConfig) : YoConfig :=
  if config.database.driver = "" ∧ config.sqlite.dbPath ≠ "" then
    { config with database := ⟨"sqlite3", config.sqlite.dbPath⟩ }
  else config

@[simp] theorem YoConfig.withDatabase_agent (config : YoConfig) :
    config.withDatabase.agent = config.agent := by
  unfold withDatabase
  split <;> rfl

/-- `InitConfig`; an error is a panic. -/
def initConfig (unmarshal : Text → Except String YoConfig) (data : Text) :
    Except String YoConfig :=
  match unmarshal data with
  | .error err => .error err
  | .ok config =>
    if config.withDatabase.database.driver = "" then .error "配置文件读取错误: 需要配置数据库连接"
    else .ok config.withDatabase

/-! ## The decoder -/

/-- A text field of the struct; one that the document does not have keeps its zero value. -/
def stringField (doc : Document) (name key : String) : Option String :=
  match doc.value name.toList key.toList with
  | none => some ""
  | some v => (readPlain v).map String.ofList

/-- A truth value; its other spellings are left open. -/
def boolField (doc : Document) (name key : String) : Option Bool :=
  match doc.value name.toList key.toList with
  | none => some false
  | some v =>
    if readPlain v = some "true".toList then some true
    else if readPlain v = some "false".toList then some false
    else none

/-- The struct of a document whose values are all plain. -/
def decode (doc : Document) : Option YoConfig := do
  let debug ← boolField doc "App" "Debug"
  let dbLog ← boolField doc "App" "DbLog"
  let logFile ← stringField doc "App" "LogFile"
  let dbPath ← stringField doc "Sqlite" "DbPath"
  let driver ← stringField doc "Database" "Driver"
  let dsn ← stringField doc "Database" "DSN"
  let host ← stringField doc "HttpServer" "Host"
  let post ← stringField doc "HttpServer" "Post"
  let folder ← stringField doc "Script" "Folder"
  let logFolder ← stringField doc "Script" "LogFolder"
  let corpId ← stringField doc "WeCom" "CorpId"
  let corpSecret ← stringField doc "WeCom" "CorpSecret"
  let agentId ← stringField doc "WeCom" "AgentId"
  let masterAddress ← stringField doc "Agent" "MasterAddress"
  let secretKey ← stringField doc "Agent" "SecretKey"
  let nodeName ← stringField doc "Agent" "NodeName"
  some ⟨⟨debug, dbLog, logFile⟩, ⟨dbPath⟩, ⟨driver, dsn⟩, ⟨host, post⟩, ⟨folder, logFolder⟩,
    ⟨corpId, corpSecret, agentId⟩, ⟨masterAddress, secretKey, nodeName⟩⟩

/-! ## The file -/

/-- The content of a here-document that the shell has read. -/
def hereDocText (items : List PosixShell.Item) : Option Text :=
  items.findSome? fun item =>
    match item with
    | .hereDoc lines => some (joinLines lines)
    | _ => none

/-- `config.yml`, as the remote shell writes it when it runs the third command. -/
def configFile (httpHost httpPost installPath : String) (node : Node) : Option Text := do
  let command ← (deployCommands httpHost httpPost installPath node)[2]?
  let items ← PosixShell.read command.cmd.toList
  hereDocText items

/-- The document that the format string is meant to be. -/
def configDocument (path post master key name : Text) : Document :=
  [("App".toList, [("Debug".toList, "false".toList), ("DbLog".toList, "false".toList),
      ("LogFile".toList, path ++ "/tmp/run.log".toList)]),
   ("Script".toList, [("Folder".toList, path ++ "/script".toList),
      ("LogFolder".toList, path ++ "/tmp/log".toList)]),
   ("Sqlite".toList, [("DbPath".toList, path ++ "/gonitor.db".toList)]),
   ("HttpServer".toList, [("Host".toList, "0.0.0.0".toList), ("Post".toList, post)]),
   ("Agent".toList, [("MasterAddress".toList, master), ("SecretKey".toList, key),
      ("NodeName".toList, name)])]

theorem configBody_eq_text (path post master key name : String) :
    (configBody path post master key name).toList = text (configDocument path.toList post.toList
      master.toList key.toList name.toList) := by
  rw [configBody_toList]
  simp [configTexts, configDocument, text, joinLines, documentLines, sectionLines, fieldLine]

/-- All but the name are plain values. -/
structure PlainParts (path post master key : Text) : Prop where
  path : ∀ suffix, suffix.all isSimple → 4 < suffix.length → IsLiteral (path ++ suffix)
  post : (readPlain post).isSome
  master : (readPlain master).isSome
  key : IsLiteral key

/-- What is assumed of `yaml.Unmarshal`, for a document of this shape. -/
structure DecodesYaml (unmarshal : Text → Except String YoConfig) : Prop where
  /-- plain values are decoded field by field -/
  plain : ∀ path post master key name cfg, PlainParts path post master key →
    (configDocument path post master key name).WellFormed →
    decode (configDocument path post master key name) = some cfg →
    unmarshal (text (configDocument path post master key name)) = .ok cfg
  /-- quotes, tags, anchors, brackets, comments, line breaks and the marks of keys are not part
      of a value -/
  marked : ∀ path post master key name cfg, PlainParts path post master key →
    (configDocument path post master key name).WellFormed → readPlain name = none →
    unmarshal (text (configDocument path post master key name)) = .ok cfg →
    cfg.agent.nodeName.toList ≠ name

/-- Lines put together again. -/
theorem joinLines_bodyLines {a : Text} (h : ['\n'] <:+ a) :
    joinLines (PosixShell.bodyLines a) = a := by
  obtain ⟨b, rfl⟩ := h
  rw [PosixShell.bodyLines_concat, joinLines_eq_intercalate (PosixShell.lines_ne_nil b)]
  exact congrArg (· ++ ['\n']) (List.intercalate_splitOn '\n')

/-- The addresses that a master can have: its port and its address are plain values. -/
structure PlainAddress (httpHost httpPost : String) : Prop where
  post : (readPlain httpPost.toList).isSome
  master : (readPlain (masterAddress httpHost httpPost).toList).isSome

/-- Such is the address of a master with a host name or an IPv4 address. -/
theorem plainAddress_of_simple {httpHost httpPost : String} (hhost : httpHost.toList.all isSimple)
    (hpost : httpPost.toList.all Char.isAlphanum) (hne : httpPost ≠ "") :
    PlainAddress httpHost httpPost := by
  have hhost' : ∀ c ∈ httpHost.toList, isSimple c = true := List.all_eq_true.mp hhost
  have hpost' : ∀ c ∈ httpPost.toList, isSimple c = true := by
    intro c hc
    have halphanum := List.all_eq_true.mp hpost c hc
    simp [isSimple, halphanum]
  have hcolon {v : Text} (h : ∀ c ∈ v, isSimple c = true) : ':' ∉ v := fun hmem =>
    absurd (h _ hmem) (by decide)
  constructor
  case post => exact readPlain_isSome_of_alphanum hpost
  case master =>
    have hliteral : IsLiteral (masterAddress httpHost httpPost).toList := by
      have htext : (masterAddress httpHost httpPost).toList =
          "http".toList ++ (':' :: ("//".toList ++ (httpHost.toList ++ ':' :: httpPost.toList))) := by
        simp [masterAddress]
      obtain ⟨c, rest, hcons⟩ := List.exists_cons_of_ne_nil
        (fun hnil => hne (String.toList_eq_nil_iff.mp hnil) : httpPost.toList ≠ [])
      have hblank : isBlank c = false :=
        not_isBlank_of_simple (hpost' c (hcons ▸ List.mem_cons_self))
      rw [htext]
      apply isLiteral_of_colons
      · intro c hc
        simp only [List.mem_append, List.mem_cons] at hc
        obtain hc | rfl | hc | hc | rfl | hc := hc
        · exact .inl (List.all_eq_true.mp (by decide : "http".toList.all isSimple = true) c hc)
        · exact .inr rfl
        · exact .inl (List.all_eq_true.mp (by decide : "//".toList.all isSimple = true) c hc)
        · exact .inl (hhost' c hc)
        · exact .inr rfl
        · exact .inl (hpost' c hc)
      · -- the first colon stands before a slash, the second one before the port
        have hslash : hasColon (':' :: ("//".toList ++ (httpHost.toList ++ ':' :: httpPost.toList))) =
            hasColon (httpHost.toList ++ ':' :: httpPost.toList) := by
          simp [hasColon, isBlank]
        rw [hasColon_append (by decide), hslash, hasColon_append (hcolon hhost'), hcons]
        have hrest := hasColon_of_not_mem (hcolon hpost')
        rw [hcons] at hrest
        simp_all [hasColon]
      · rfl
      · simp
    rw [(readPlain_eq_self_iff hliteral.ne_nil).mpr hliteral]
    rfl

/-- The name has no line break. -/
def OneLine (name : String) : Prop := '\n' ∉ name.toList ∧ '\r' ∉ name.toList

section File

variable {httpHost httpPost installPath : String} {node : Node}

theorem delimiter_not_mem_tail {value : Text} (h : '\n' ∉ value) :
    delimiter ∉ (PosixShell.lines value).tail := by
  rw [PosixShell.lines_of_not_mem h]
  exact List.not_mem_nil

theorem break_not_mem_of_readable {value : Text} (h : (readPlain value).isSome) :
    '\n' ∉ value ∧ '\r' ∉ value := by
  have hreadable : value.all isReadable := by
    by_contra hnot
    simp [readPlain, hnot] at h
  have hall := List.all_eq_true.mp hreadable
  constructor
  · intro hmem
    exact absurd (hall _ hmem) (by decide)
  · intro hmem
    exact absurd (hall _ hmem) (by decide)

theorem configBody_endsLine (path post master key name : String) :
    ['\n'] <:+ (configBody path post master key name).toList := by
  unfold configBody
  rw [String.toList_append]
  exact List.IsSuffix.trans (by decide) (List.suffix_append _ _)

/-- **The file**: what the shell writes is the text of the document. -/
theorem configFile_eq (hpath : validateInstallPath installPath = none) (hnode : Storable node)
    (hname : OneLine node.name) (hmaster : PlainAddress httpHost httpPost) :
    configFile httpHost httpPost installPath node =
      some (text (configDocument installPath.toList httpPost.toList
        (masterAddress httpHost httpPost).toList node.secretKey.toList node.name.toList)) := by
  have hplain := isPlainWord_of_validated hpath
  have hvalues : ∀ value ∈ [httpPost, masterAddress httpHost httpPost, node.name],
      delimiter ∉ (PosixShell.lines value.toList).tail := by
    intro value hvalue
    apply delimiter_not_mem_tail
    simp only [List.mem_cons, List.not_mem_nil, or_false] at hvalue
    obtain rfl | rfl | rfl := hvalue
    · exact (break_not_mem_of_readable hmaster.post).1
    · exact (break_not_mem_of_readable hmaster.master).1
    · exact hname.1
  have hread := (read_config_iff hplain hnode).mpr hvalues
  rw [← configBody_eq_text, ← joinLines_bodyLines (configBody_endsLine ..)]
  simp only [configFile, deployCommands, List.getElem?_cons_succ, List.getElem?_cons_zero,
    Option.bind_eq_bind, Option.bind_some, String.toList_append, List.append_assoc]
  exact congrArg (Option.bind · hereDocText) hread

end File

/-! ## Reading it back -/

/-- A file under the install path. -/
def Under (installPath file : String) : Prop := installPath.toList ++ ['/'] <+: file.toList

/-- What the agent is meant to find in its configuration. -/
structure ReadsBack (installPath : String) (node : Node) (cfg : YoConfig) : Prop where
  nodeName : cfg.agent.nodeName = node.name
  secretKey : cfg.agent.secretKey = node.secretKey
  dbPath : Under installPath cfg.sqlite.dbPath
  folder : Under installPath cfg.script.folder
  logFolder : Under installPath cfg.script.logFolder
  logFile : Under installPath cfg.app.logFile
  driver : cfg.database.driver = "sqlite3"
  dsn : cfg.database.dsn = cfg.sqlite.dbPath

section Reading

variable {path post master key name : Text}

/-- What the document decodes to. -/
def decoded (path post master key name : Text) : YoConfig where
  app := { logFile := String.ofList (path ++ "/tmp/run.log".toList) }
  sqlite := ⟨String.ofList (path ++ "/gonitor.db".toList)⟩
  httpServer := ⟨"0.0.0.0", String.ofList post⟩
  script := ⟨String.ofList (path ++ "/script".toList), String.ofList (path ++ "/tmp/log".toList)⟩
  agent := ⟨String.ofList master, String.ofList key, String.ofList name⟩

theorem stringField_of_value {doc : Document} {field entry : String} {v w : Text}
    (hvalue : doc.value field.toList entry.toList = some v) (hread : readPlain v = some w) :
    stringField doc field entry = some (String.ofList w) := by
  simp [stringField, hvalue, hread]

theorem stringField_of_missing {doc : Document} {field entry : String}
    (hvalue : doc.value field.toList entry.toList = none) : stringField doc field entry = some "" := by
  simp [stringField, hvalue]

/-- The document decodes as its values are read. -/
theorem decode_configDocument {post' master' name' : Text}
    (hpath : ∀ suffix, suffix.all isSimple → 4 < suffix.length → IsLiteral (path ++ suffix))
    (hkey : IsLiteral key) (hpost : readPlain post = some post')
    (hmaster : readPlain master = some master') (hname : readPlain name = some name') :
    decode (configDocument path post master key name) =
      some (decoded path post' master' key name') := by
  have hread {v : Text} (h : IsLiteral v) : readPlain v = some v :=
    (readPlain_eq_self_iff h.ne_nil).mpr h
  have hunder (suffix : String) (hsimple : suffix.toList.all isSimple)
      (hlength : 4 < suffix.toList.length) :
      readPlain (path ++ suffix.toList) = some (path ++ suffix.toList) :=
    hread (hpath suffix.toList hsimple hlength)
  unfold decode
  -- the fields in the order of the struct; `Database` and `WeCom` are missing
  rw [show boolField _ "App" "Debug" = some false from rfl,
    show boolField _ "App" "DbLog" = some false from rfl,
    stringField_of_value rfl (hunder "/tmp/run.log" (by decide) (by decide)),
    stringField_of_value rfl (hunder "/gonitor.db" (by decide) (by decide)),
    stringField_of_missing rfl, stringField_of_missing rfl,
    stringField_of_value rfl (show readPlain "0.0.0.0".toList = some _ by rfl),
    stringField_of_value rfl hpost,
    stringField_of_value rfl (hunder "/script" (by decide) (by decide)),
    stringField_of_value rfl (hunder "/tmp/log" (by decide) (by decide)),
    stringField_of_missing rfl, stringField_of_missing rfl, stringField_of_missing rfl,
    stringField_of_value rfl hmaster, stringField_of_value rfl (hread hkey),
    stringField_of_value rfl hname]
  rfl

end Reading

/-! ## The round trip -/

section RoundTrip

variable {httpHost httpPost installPath : String} {node : Node}

theorem isSimple_of_safe {c : Char} (h : isSafePathChar c = true) : isSimple c = true := by
  simp only [isSafePathChar, Bool.or_eq_true] at h
  simp only [isSimple, Bool.or_eq_true]
  grind

/-- A checked path, with something simple after it. -/
theorem isLiteral_under (hpath : validateInstallPath installPath = none) {suffix : Text}
    (hsuffix : suffix.all isSimple) (hlength : 4 < suffix.length) :
    IsLiteral (installPath.toList ++ suffix) := by
  obtain ⟨-, hsafe⟩ := safe_of_validated hpath
  apply isLiteral_of_simple
  · rw [List.all_append, hsuffix, Bool.and_true]
    apply List.all_eq_true.mpr
    intro c hc
    exact isSimple_of_safe (hsafe c hc)
  · rw [List.length_append]
    omega

theorem Storable.isLiteral_key (h : Storable node) : IsLiteral node.secretKey.toList := by
  apply isLiteral_of_simple
  · apply List.all_eq_true.mpr
    intro c hc
    have halphanum : c.isAlphanum = true := List.all_eq_true.mp h.key_alphanumeric c hc
    simp [isSimple, halphanum]
  · have hlength : node.secretKey.toList.length = 32 := h.key_length
    omega

/-- The document that the master writes. -/
def nodeDocument (httpHost httpPost installPath : String) (node : Node) : Document :=
  configDocument installPath.toList httpPost.toList (masterAddress httpHost httpPost).toList
    node.secretKey.toList node.name.toList

/-- A checked path, the key of a node, and a plain address. -/
theorem plainParts (hpath : validateInstallPath installPath = none) (hnode : Storable node)
    (hmaster : PlainAddress httpHost httpPost) : PlainParts installPath.toList httpPost.toList
      (masterAddress httpHost httpPost).toList node.secretKey.toList where
  path _ := isLiteral_under hpath
  post := hmaster.post
  master := hmaster.master
  key := hnode.isLiteral_key

theorem nodeDocument_wellFormed (hpath : validateInstallPath installPath = none)
    (hnode : Storable node) (hname : OneLine node.name) (hmaster : PlainAddress httpHost httpPost) :
    (nodeDocument httpHost httpPost installPath node).WellFormed := by
  have hliteral {v : Text} (h : IsLiteral v) : '\n' ∉ v ∧ '\r' ∉ v := by
    apply break_not_mem_of_readable
    rw [(readPlain_eq_self_iff h.ne_nil).mpr h]
    rfl
  have hunder (suffix : String) (hsimple : suffix.toList.all isSimple)
      (hlength : 4 < suffix.toList.length) :=
    hliteral (isLiteral_under hpath hsimple hlength)
  have hkey := hliteral hnode.isLiteral_key
  have hpost := break_not_mem_of_readable hmaster.post
  have haddress := break_not_mem_of_readable hmaster.master
  have hlogFile := hunder "/tmp/run.log" (by decide) (by decide)
  have hfolder := hunder "/script" (by decide) (by decide)
  have hlogFolder := hunder "/tmp/log" (by decide) (by decide)
  have hdbPath := hunder "/gonitor.db" (by decide) (by decide)
  constructor
  case names =>
    simp only [nodeDocument, configDocument, List.forall_mem_cons]
    decide
  case distinct => simp [nodeDocument, configDocument]
  case keys =>
    simp only [nodeDocument, configDocument, List.forall_mem_cons]
    decide
  case distinct_keys => simp [nodeDocument, configDocument]
  case values =>
    simp only [nodeDocument, configDocument, List.forall_mem_cons]
    exact ⟨⟨by decide, by decide, hlogFile, nofun⟩, ⟨hfolder, hlogFolder, nofun⟩,
      ⟨hdbPath, nofun⟩, ⟨by decide, hpost, nofun⟩, ⟨haddress, hkey, hname, nofun⟩, nofun⟩

/-- The file decodes, and the name is the only thing that can be different in it. -/
theorem unmarshal_nodeDocument {unmarshal : Text → Except String YoConfig}
    (hyaml : DecodesYaml unmarshal) (hpath : validateInstallPath installPath = none)
    (hnode : Storable node) (hname : OneLine node.name) (hmaster : PlainAddress httpHost httpPost)
    {name : Text} (hread : readPlain node.name.toList = some name) :
    ∃ post master, unmarshal (text (nodeDocument httpHost httpPost installPath node)) =
      .ok (decoded installPath.toList post master node.secretKey.toList name) := by
  obtain ⟨post, hpost⟩ := Option.isSome_iff_exists.mp hmaster.post
  obtain ⟨master, haddress⟩ := Option.isSome_iff_exists.mp hmaster.master
  refine ⟨post, master, hyaml.plain _ _ _ _ _ _ (plainParts hpath hnode hmaster)
    (nodeDocument_wellFormed hpath hnode hname hmaster) ?_⟩
  exact decode_configDocument (fun _ => isLiteral_under hpath) hnode.isLiteral_key hpost haddress
    hread

theorem initConfig_decoded {unmarshal : Text → Except String YoConfig} {data : Text}
    {path post master key name : Text} (h : unmarshal data = .ok (decoded path post master key name)) :
    initConfig unmarshal data = .ok { decoded path post master key name with
      database := ⟨"sqlite3", String.ofList (path ++ "/gonitor.db".toList)⟩ } := by
  have hdbPath : String.ofList (path ++ "/gonitor.db".toList) ≠ "" := by
    intro hempty
    have hlist := congrArg String.toList hempty
    simp at hlist
  have hdatabase : (decoded path post master key name).withDatabase =
      { decoded path post master key name with
        database := ⟨"sqlite3", String.ofList (path ++ "/gonitor.db".toList)⟩ } :=
    if_pos ⟨rfl, hdbPath⟩
  simp [initConfig, h, hdatabase]

theorem nodeName_of_initConfig {unmarshal : Text → Except String YoConfig} {data : Text}
    {cfg : YoConfig} (h : initConfig unmarshal data = .ok cfg) :
    ∃ cfg', unmarshal data = .ok cfg' ∧ cfg.agent = cfg'.agent := by
  unfold initConfig at h
  split at h
  · cases h
  · rename_i cfg' hdata
    split at h
    · cases h
    · cases h
      exact ⟨cfg', hdata, by simp⟩

/-- **The round trip of the configuration**: for every node that can be stored with a name of one
    line, and for every checked path, the agent finds in its configuration what the master has
    written if and only if the name is a literal value. -/
theorem config_reads_back_iff {unmarshal : Text → Except String YoConfig}
    (hyaml : DecodesYaml unmarshal) (hpath : validateInstallPath installPath = none)
    (hnode : Storable node) (hname : OneLine node.name)
    (hmaster : PlainAddress httpHost httpPost) :
    (∃ data cfg, configFile httpHost httpPost installPath node = some data ∧
      initConfig unmarshal data = .ok cfg ∧ ReadsBack installPath node cfg) ↔
      IsLiteral node.name.toList := by
  have hfile := configFile_eq hpath hnode hname hmaster
  have hne : node.name.toList ≠ [] := fun hnil => hnode.name_ne (String.toList_eq_nil_iff.mp hnil)
  rw [← readPlain_eq_self_iff hne]
  constructor
  · rintro ⟨data, cfg, hdata, hinit, hback⟩
    obtain rfl : text (nodeDocument httpHost httpPost installPath node) = data :=
      Option.some.inj (hfile.symm.trans hdata)
    obtain ⟨cfg', hcfg, hagent⟩ := nodeName_of_initConfig hinit
    have hback' : cfg'.agent.nodeName.toList = node.name.toList := by
      rw [← hagent, hback.nodeName]
    cases hread : readPlain node.name.toList with
    | none =>
      -- a value that is not a plain one is not its own text
      exact absurd hback' (hyaml.marked _ _ _ _ _ _ (plainParts hpath hnode hmaster)
        (nodeDocument_wellFormed hpath hnode hname hmaster) hread hcfg)
    | some name =>
      obtain ⟨post, master, hplain⟩ := unmarshal_nodeDocument hyaml hpath hnode hname hmaster hread
      rw [hplain] at hcfg
      cases hcfg
      have heq : name = node.name.toList := by simpa [decoded] using hback'
      rw [heq]
  · intro hread
    obtain ⟨post, master, hplain⟩ := unmarshal_nodeDocument hyaml hpath hnode hname hmaster hread
    refine ⟨_, _, hfile, initConfig_decoded hplain, ?_⟩
    constructor <;> simp [decoded, Under]

end RoundTrip

/-! ## Two names -/

/-- A decoder that reads what has been written, and nothing else. -/
def blockDecoder (data : Text) : Except String YoConfig :=
  match (parse data).bind decode with
  | some cfg => .ok cfg
  | none => .error "yaml: not a plain document"

theorem blockDecoder_decodesYaml : DecodesYaml blockDecoder := by
  constructor
  case plain =>
    intro path post master key name cfg _ hdoc hdecode
    simp [blockDecoder, parse_text hdoc, hdecode]
  case marked =>
    intro path post master key name cfg _ hdoc hread hdecode
    have hvalue : (configDocument path post master key name).value "Agent".toList
        "NodeName".toList = some name := rfl
    have hname : stringField (configDocument path post master key name) "Agent" "NodeName" = none := by
      simp only [stringField, hvalue, hread, Option.map_none]
    have hnone : decode (configDocument path post master key name) = none := by
      simp [decode, hname]
    simp [blockDecoder, parse_text hdoc, hnone] at hdecode

/-- An ordinary name is read back. -/
theorem config_reads_back_iff_edge : ∃ data cfg,
    configFile "10.0.0.1" "8899" "/opt/gonitor" (nodeNamed "edge") = some data ∧
      initConfig blockDecoder data = .ok cfg ∧
      ReadsBack "/opt/gonitor" (nodeNamed "edge") cfg :=
  (config_reads_back_iff blockDecoder_decodesYaml (by decide) ⟨by decide, by decide, by decide⟩
    ⟨by decide, by decide⟩ (plainAddress_of_simple (by decide) (by decide) (by decide))).mpr
    ⟨by decide, by decide, by decide, by decide, by decide, by decide⟩

/-- A name with a `#` after a blank: the agent takes the rest of it for a comment. -/
theorem comment_cuts_name : ¬ ∀ (unmarshal : Text → Except String YoConfig)
    (httpHost httpPost installPath : String) (node : Node), DecodesYaml unmarshal →
    validateInstallPath installPath = none → Storable node → OneLine node.name →
    PlainAddress httpHost httpPost →
    ∃ data cfg, configFile httpHost httpPost installPath node = some data ∧
      initConfig unmarshal data = .ok cfg ∧ ReadsBack installPath node cfg := by
  intro hall
  have hpath : validateInstallPath "/opt/gonitor" = none := by decide
  have hnode : Storable (nodeNamed "edge #2") := ⟨by decide, by decide, by decide⟩
  have hname : OneLine (nodeNamed "edge #2").name := ⟨by decide, by decide⟩
  have hmaster : PlainAddress "10.0.0.1" "8899" :=
    plainAddress_of_simple (by decide) (by decide) (by decide)
  obtain ⟨data, cfg, hdata, hinit, hback⟩ := hall _ _ _ _ _ blockDecoder_decodesYaml hpath hnode
    hname hmaster
  have hfile := configFile_eq hpath hnode hname hmaster
  obtain rfl : text (nodeDocument "10.0.0.1" "8899" "/opt/gonitor" (nodeNamed "edge #2")) = data :=
    Option.some.inj (hfile.symm.trans hdata)
  have hread : readPlain (nodeNamed "edge #2").name.toList = some "edge".toList := by decide
  obtain ⟨post, master, hplain⟩ :=
    unmarshal_nodeDocument blockDecoder_decodesYaml hpath hnode hname hmaster hread
  obtain ⟨cfg', hcfg, hagent⟩ := nodeName_of_initConfig hinit
  rw [hplain] at hcfg
  cases hcfg
  have hnodeName : cfg.agent.nodeName = "edge" := by
    rw [hagent]
    rfl
  exact absurd (hnodeName.symm.trans hback.nodeName) (by decide)

end Gonitor.Deploy
