import MangoProtocol.ProofKit.Fallible
import MangoProtocol.ProofKit.Shell
import MangoProtocol.Validate
import Mathlib.Data.List.TakeWhile

/-! The argument vector of the `ssh` preset.  The words after the destination are quoted for the
login shell of the target, which reads them as one simple command.  The destination is checked by
its parts and read by `ssh` as a whole. -/

namespace MangoProtocol

open ProofKit

def defaultConnectTimeoutSeconds : UInt32 := 10

def portMin : UInt16 := 1

structure SshArgv where
  host : String
  user : Option String
  port : Option UInt16
  identityFile : Option String
  command : List String
  connectTimeoutSeconds : UInt32

def SshArgv.new (host : String) (command : List String) : SshArgv :=
  ⟨host, none, none, none, command, defaultConnectTimeoutSeconds⟩

/-- Which part could not become a command line. -/
inductive SshArgvError where
  | host (host : String)
  | user (user : String)
  | port (port : UInt16)
  | connectTimeoutSeconds (seconds : UInt32)
  | command (command : List String)
  deriving DecidableEq

namespace SshArgvError

def reason : SshArgvError → String
  | .host _ => "host"
  | .user _ => "user"
  | .port _ => "port"
  | .connectTimeoutSeconds _ => "connectTimeoutSeconds"
  | .command _ => "command"

def toText (printable : Char → Bool) : SshArgvError → String
  | .host given => "ssh host is " ++ debugText printable given ++
      "; expected a non-empty host name without whitespace and not beginning with \"-\""
  | .user given => "ssh user is " ++ debugText printable given ++
      "; expected a non-empty user name without whitespace and not beginning with \"-\""
  | .port given => "ssh port is " ++ given.toNat.repr ++ "; expected a port of at least " ++
      portMin.toNat.repr
  | .connectTimeoutSeconds seconds => "ssh connectTimeoutSeconds is " ++ seconds.toNat.repr ++
      "; expected an integer of at least 1 second"
  | .command given => "ssh command is [" ++ ", ".intercalate (given.map (debugText printable)) ++
      "]; expected [remotePath, ...remoteArgs] with a non-empty remote path"

end SshArgvError

/-! ### Checks -/

def isWhitespace (c : Char) : Bool :=
  (9 ≤ c.toNat && c.toNat ≤ 13) || c.toNat == 0x20 || c.toNat == 0x85 || c.toNat == 0xA0 ||
    c.toNat == 0x1680 || (0x2000 ≤ c.toNat && c.toNat ≤ 0x200A) || c.toNat == 0x2028 ||
    c.toNat == 0x2029 || c.toNat == 0x202F || c.toNat == 0x205F || c.toNat == 0x3000

def isUnfit (name : String) : Bool :=
  name.toList.isEmpty || name.toList.head? == some '-' || name.toList.any isWhitespace

/-- A name that is fit, or the refusal of it. -/
def checkedName (refusal : String → SshArgvError) (name : String) : Except SshArgvError String :=
  if isUnfit name then .error (refusal name) else .ok name

def checkedHost (host : String) : Except SshArgvError String := checkedName .host host

def checkedUser (user : String) : Except SshArgvError String := checkedName .user user

def checkedPort (port : UInt16) : Except SshArgvError UInt16 :=
  if port < portMin then .error (.port port) else .ok port

def checkedTimeout (seconds : UInt32) : Except SshArgvError UInt32 :=
  if seconds < 1 then .error (.connectTimeoutSeconds seconds) else .ok seconds

def checkedCommand (command : List String) : Except SshArgvError (String × List String) :=
  match command with
  | remotePath :: rest =>
    if remotePath.toList.isEmpty then .error (.command command) else .ok (remotePath, rest)
  | [] => .error (.command command)

/-! ### Words -/

def singleQuote (value : String) : String :=
  "'" ++ String.ofList (value.toList.flatMap fun c =>
    if c = Shell.quote then "'\\''".toList else [c]) ++ "'"

/-- A leading `~/` stays outside the quotes. -/
def quoteRemotePath (remotePath : String) : String :=
  match remotePath.toList with
  | '~' :: '/' :: rest => "~/" ++ singleQuote (String.ofList rest)
  | _ => singleQuote remotePath

def sshDestination (user : Option String) (host : String) : String :=
  match user with
  | some user => user ++ "@" ++ host
  | none => host

/-- The words before the destination. -/
def sshOptions (connectTimeout : UInt32) (identityFile : Option String) (port : Option UInt16) :
    List String :=
  ["ssh", "-o", "BatchMode=yes", "-o", "ConnectTimeout=" ++ connectTimeout.toNat.repr,
    "-o", "ServerAliveInterval=15", "-o", "ServerAliveCountMax=3",
    "-o", "StrictHostKeyChecking=yes", "-o", "ControlMaster=no", "-o", "ControlPath=none",
    "-o", "RemoteCommand=none"] ++
  (match identityFile with
    | some identityFile => ["-o", "IdentitiesOnly=yes", "-i", identityFile]
    | none => []) ++
  (match port with
    | some port => ["-p", port.toNat.repr]
    | none => []) ++
  ["-T", "--"]

theorem sshOptions_dashes (connectTimeout : UInt32) (identityFile : Option String)
    (port : Option UInt16) :
    ∃ front, sshOptions connectTimeout identityFile port = front ++ ["--"] := by
  unfold sshOptions
  exact ⟨_, (List.append_assoc _ ["-T"] ["--"]).symm⟩

/-- The words after the destination. -/
def remoteWords (remotePath : String) (remoteArgs : List String) : List String :=
  quoteRemotePath remotePath :: remoteArgs.map singleQuote

def sshArgv (options : SshArgv) : Except SshArgvError (List String) := do
  let host ← checkedHost options.host
  let user ← options.user.mapM checkedUser
  let connectTimeout ← checkedTimeout options.connectTimeoutSeconds
  let (remotePath, remoteArgs) ← checkedCommand options.command
  let port ← options.port.mapM checkedPort
  return sshOptions connectTimeout options.identityFile port ++
    sshDestination user host :: remoteWords remotePath remoteArgs

/-! ### What is accepted -/

/-- What the checks leave of the options. -/
structure SshArgv.Accepted (options : SshArgv) (remotePath : String) (remoteArgs : List String) :
    Prop where
  host : isUnfit options.host = false
  user : ∀ user ∈ options.user, isUnfit user = false
  timeout : 1 ≤ options.connectTimeoutSeconds
  command : options.command = remotePath :: remoteArgs
  path : remotePath.toList ≠ []
  port : ∀ port ∈ options.port, portMin ≤ port

theorem checkedName_eq_ok {refusal : String → SshArgvError} {name found : String} :
    checkedName refusal name = .ok found ↔ isUnfit name = false ∧ found = name := by
  rw [checkedName, refuse_eq_ok, Bool.not_eq_true]

theorem checkedPort_eq_ok {port found : UInt16} :
    checkedPort port = .ok found ↔ portMin ≤ port ∧ found = port := by
  rw [checkedPort, refuse_eq_ok, UInt16.not_lt]

theorem checkedTimeout_eq_ok {seconds found : UInt32} :
    checkedTimeout seconds = .ok found ↔ 1 ≤ seconds ∧ found = seconds := by
  rw [checkedTimeout, refuse_eq_ok, UInt32.not_lt]

theorem checkedCommand_eq_ok {command remoteArgs : List String} {remotePath : String} :
    checkedCommand command = .ok (remotePath, remoteArgs) ↔
      command = remotePath :: remoteArgs ∧ remotePath.toList ≠ [] := by
  cases command with
  | nil => simp [checkedCommand]
  | cons first rest =>
    rw [checkedCommand, refuse_eq_ok, List.isEmpty_iff, Prod.mk.injEq, List.cons.injEq]
    constructor
    · rintro ⟨hne, rfl, rfl⟩
      exact ⟨⟨rfl, rfl⟩, hne⟩
    · rintro ⟨⟨rfl, rfl⟩, hne⟩
      exact ⟨hne, rfl, rfl⟩

theorem sshArgv_eq_ok {options : SshArgv} {argv : List String} :
    sshArgv options = .ok argv ↔
      ∃ remotePath remoteArgs, options.Accepted remotePath remoteArgs ∧
        argv = sshOptions options.connectTimeoutSeconds options.identityFile options.port ++
          sshDestination options.user options.host :: remoteWords remotePath remoteArgs := by
  have hu {found : Option String} : options.user.mapM checkedUser = .ok found ↔
      (∀ user ∈ options.user, isUnfit user = false) ∧ found = options.user :=
    mapM_eq_ok fun _ _ => checkedName_eq_ok
  have hp {found : Option UInt16} : options.port.mapM checkedPort = .ok found ↔
      (∀ port ∈ options.port, portMin ≤ port) ∧ found = options.port :=
    mapM_eq_ok fun _ _ => checkedPort_eq_ok
  unfold sshArgv
  simp only [bind_eq_ok_iff, checkedHost, checkedName_eq_ok, hu, checkedTimeout_eq_ok,
    Prod.exists, checkedCommand_eq_ok, hp]
  constructor
  · rintro ⟨_, ⟨hh, rfl⟩, _, ⟨hu, rfl⟩, _, ⟨ht, rfl⟩, remotePath, remoteArgs,
      ⟨hc, hpa⟩, _, ⟨hp, rfl⟩, ha⟩
    exact ⟨remotePath, remoteArgs, ⟨hh, hu, ht, hc, hpa, hp⟩,
      (Except.ok.inj ha).symm⟩
  · rintro ⟨remotePath, remoteArgs, h, rfl⟩
    exact ⟨_, ⟨h.host, rfl⟩, _, ⟨h.user, rfl⟩, _, ⟨h.timeout, rfl⟩, remotePath, remoteArgs,
      ⟨h.command, h.path⟩, _, ⟨h.port, rfl⟩, rfl⟩

/-! ### The command on the target -/

def remotePathWord (remotePath : String) : Shell.Word :=
  match remotePath.toList with
  | '~' :: '/' :: rest => .plain '~' :: .plain '/' :: rest.map .quoted
  | chars => chars.map .quoted

/-- The words that a command is to be. -/
def commandWords : List String → List Shell.Word
  | [] => []
  | remotePath :: remoteArgs =>
    remotePathWord remotePath :: remoteArgs.map fun argument => argument.toList.map .quoted

theorem singleQuote_toList (value : String) :
    (singleQuote value).toList = Shell.singleQuoted value.toList := by
  simp only [singleQuote, String.toList_append, String.toList_ofList]
  rfl

theorem readsAs_singleQuote (value : String) :
    Shell.ReadsAs (singleQuote value).toList (value.toList.map .quoted) := by
  rw [singleQuote_toList]
  exact Shell.readsAs_singleQuoted value.toList

theorem readsAs_quoteRemotePath (remotePath : String) :
    Shell.ReadsAs (quoteRemotePath remotePath).toList (remotePathWord remotePath) := by
  unfold quoteRemotePath remotePathWord
  split
  · rename_i rest hp
    intro tokens
    have ht : Shell.Lexer.scan ⟨.plain, none, tokens⟩ "~/".toList =
        some ⟨.plain, some [.plain '~', .plain '/'], tokens⟩ := rfl
    rw [String.toList_append, singleQuote_toList, Shell.Lexer.scan_append, ht,
      Option.bind_some, Shell.Lexer.scan_singleQuoted]
    simp
  · exact readsAs_singleQuote remotePath

theorem remotePathWord_text (remotePath : String) :
    Shell.Word.text (remotePathWord remotePath) = remotePath.toList := by
  unfold remotePathWord
  split
  · rename_i rest hp
    simp [hp]
  · simp

theorem commandWords_text (command : List String) :
    (commandWords command).map Shell.Word.text = command.map String.toList := by
  cases command with
  | nil => rfl
  | cons remotePath remoteArgs =>
    simp_all [commandWords, List.map_cons, remotePathWord_text, List.map_map]

theorem remotePathWord_isReserved (remotePath : String) :
    Shell.Word.isReserved (remotePathWord remotePath) = false := by
  unfold remotePathWord
  split
  · rename_i rest hp
    cases rest with
    | nil => decide +kernel
    | cons c rest => rfl
  · exact Shell.Word.isReserved_quoted _

theorem remotePathWord_isAssignment (remotePath : String) :
    Shell.Word.isAssignment (remotePathWord remotePath) = false := by
  unfold remotePathWord
  split
  · rfl
  · exact Shell.Word.isAssignment_quoted _

/-- The words after the destination, joined by blanks, are one simple command of the shell, whose
words are the given ones.  Outside quotes is only a `~/` at the head of the first. -/
theorem sshArgv_simple_command {options : SshArgv} {argv : List String}
    (h : sshArgv options = .ok argv) :
    ∃ front words, argv = front ++ sshDestination options.user options.host :: words ∧
      front = sshOptions options.connectTimeoutSeconds options.identityFile options.port ∧
      (Shell.lex (" ".intercalate words).toList).bind Shell.simpleCommand =
        some (commandWords options.command) ∧
      (commandWords options.command).map Shell.Word.text = options.command.map String.toList := by
  obtain ⟨remotePath, remoteArgs, ha, rfl⟩ := sshArgv_eq_ok.mp h
  refine ⟨_, _, rfl, rfl, ?_, commandWords_text options.command⟩
  have hr : List.Forall₂ Shell.ReadsAs ((remoteWords remotePath remoteArgs).map String.toList)
      (commandWords options.command) := by
    rw [ha.command, remoteWords, commandWords, List.map_cons, List.map_map]
    refine .cons (readsAs_quoteRemotePath remotePath) ?_
    rw [List.forall₂_map_left_iff, List.forall₂_map_right_iff, List.forall₂_same]
    exact fun argument _ => readsAs_singleQuote argument
  have hb : " ".toList = [' '] := rfl
  rw [String.toList_intercalate, hb, Shell.lex_joined hr, Option.bind_some,
    ha.command]
  exact Shell.simpleCommand_words (remotePathWord_isReserved remotePath)
    (remotePathWord_isAssignment remotePath)

def sampleSsh : SshArgv := .new "build-box" ["~/it's", "--stdio"]

theorem sshArgv_simple_command_sample :
    ∃ argv front words, sshArgv sampleSsh = .ok argv ∧ argv = front ++ "build-box" :: words ∧
      (Shell.lex (" ".intercalate words).toList).bind Shell.simpleCommand =
        some (commandWords ["~/it's", "--stdio"]) := by
  obtain ⟨argv, ha⟩ : ∃ argv, sshArgv sampleSsh = .ok argv := ⟨_, rfl⟩
  obtain ⟨front, words, hw, -, hc, -⟩ := sshArgv_simple_command ha
  exact ⟨argv, front, words, ha, hw, hc⟩

/-! ### The destination -/

/-- Whom `ssh` dials. -/
structure SshTarget where
  user : Option (List Char)
  host : List Char
  deriving DecidableEq

def sshScheme : List Char := ['s', 's', 'h', ':', '/', '/']

def splitLastAt (word : List Char) : SshTarget :=
  match word.reverse.dropWhile (· != '@') with
  | [] => ⟨none, word⟩
  | _ :: user => ⟨some user.reverse, (word.reverse.takeWhile (· != '@')).reverse⟩

/-- How `ssh` reads its destination.  `readUri` reads what follows the scheme of a URI. -/
def readDestination (readUri : List Char → Option SshTarget) (word : List Char) :
    Option SshTarget :=
  if sshScheme.isPrefixOf word then readUri (word.drop sshScheme.length)
  else some (splitLastAt word)

/-- The characters of the names. -/
def SshTarget.size (self : SshTarget) : Nat := (self.user.getD []).length + self.host.length

theorem splitLastAt_bare {host : List Char} (h : '@' ∉ host) : splitLastAt host = ⟨none, host⟩ := by
  have hn : host.reverse.dropWhile (· != '@') = [] := by
    grind [List.dropWhile_eq_nil_iff]
  rw [splitLastAt, hn]

theorem splitLastAt_at (user : List Char) {host : List Char} (h : '@' ∉ host) :
    splitLastAt (user ++ '@' :: host) = ⟨some user, host⟩ := by
  have hp : ∀ c ∈ host.reverse, (c != '@') = true := by
    intro c hc
    rw [bne_iff_ne]
    rintro rfl
    exact h (List.mem_reverse.mp hc)
  rw [splitLastAt, List.reverse_append, List.reverse_cons, List.append_assoc,
    List.dropWhile_append_of_pos hp, List.takeWhile_append_of_pos hp]
  simp

theorem splitLastAt_host (word : List Char) : '@' ∉ (splitLastAt word).host := by
  unfold splitLastAt
  split
  · grind [List.dropWhile_eq_nil_iff]
  · intro hm
    have hp := List.mem_takeWhile_imp (List.mem_reverse.mp hm)
    simp at hp

theorem head_of_fit {name : String} (h : isUnfit name = false) (rest : List Char) :
    (name.toList ++ rest).head? ≠ some '-' := by
  simp only [isUnfit, Bool.or_eq_false_iff] at h
  obtain ⟨⟨he, hd⟩, -⟩ := h
  cases hn : name.toList with
  | nil =>
    rw [hn] at he
    cases he
  | cons c tail =>
    rw [hn] at hd
    simpa using hd

theorem sshDestination_toList (user : Option String) (host : String) :
    (sshDestination user host).toList =
      (match user with | some user => user.toList ++ '@' :: host.toList | none => host.toList) := by
  cases user with
  | none => rfl
  | some user => simp [sshDestination]

theorem splitLastAt_sshDestination (user : Option String) (host : String) :
    splitLastAt (sshDestination user host).toList = ⟨user.map String.toList, host.toList⟩ ↔
      '@' ∉ host.toList := by
  constructor
  · grind [splitLastAt_host, sshDestination]
  · intro hh
    rw [sshDestination_toList]
    cases user with
    | none => exact splitLastAt_bare hh
    | some user => exact splitLastAt_at user.toList hh

theorem sshDestination_not_uri {readUri : List Char → Option SshTarget}
    (hu : ∀ rest target, readUri rest = some target → target.size ≤ rest.length)
    (user : Option String) (host : String)
    (hsc : sshScheme.isPrefixOf (sshDestination user host).toList = true) :
    readUri ((sshDestination user host).toList.drop sshScheme.length) ≠
      some ⟨user.map String.toList, host.toList⟩ := by
  intro hr
  have hs := hu _ _ hr
  have hl := (List.isPrefixOf_iff_prefix.mp hsc).length_le
  rw [List.length_drop] at hs
  rw [sshDestination_toList] at hs hl
  have hle : sshScheme.length = 6 := rfl
  cases user with
  | none => grind [SshTarget.size, List.length_nil]
  | some user =>
    grind [SshTarget.size, List.length_append, List.length_cons]

/-- The destination never begins an option.  It names the given host and user if and only if the
host has no `@` and the word does not begin like a URI. -/
theorem sshArgv_destination_iff {readUri : List Char → Option SshTarget}
    (huri : ∀ rest target, readUri rest = some target → target.size ≤ rest.length)
    {options : SshArgv} {argv : List String} (h : sshArgv options = .ok argv) :
    ∃ front word words, argv = front ++ "--" :: word :: words ∧ word.toList.head? ≠ some '-' ∧
      (readDestination readUri word.toList =
          some ⟨options.user.map String.toList, options.host.toList⟩ ↔
        '@' ∉ options.host.toList ∧ sshScheme.isPrefixOf word.toList = false) := by
  obtain ⟨remotePath, remoteArgs, ha, rfl⟩ := sshArgv_eq_ok.mp h
  obtain ⟨front, hf⟩ :=
    sshOptions_dashes options.connectTimeoutSeconds options.identityFile options.port
  refine ⟨front, _, _, by rw [hf, List.append_assoc, List.singleton_append], ?_, ?_⟩
  · rw [sshDestination_toList]
    cases hu : options.user with
    | none => simpa using head_of_fit ha.host []
    | some user => exact head_of_fit (ha.user user hu) _
  · cases hs : sshScheme.isPrefixOf (sshDestination options.user options.host).toList with
    | true =>
      rw [readDestination, hs, if_pos rfl]
      refine iff_of_false (sshDestination_not_uri huri _ _ hs) fun hb => ?_
      cases hb.2
    | false =>
      rw [readDestination, hs, if_neg (by simp), Option.some.injEq,
        splitLastAt_sshDestination]
      simp

theorem sshArgv_destination_iff_sample :
    ∃ argv front word words, sshArgv sampleSsh = .ok argv ∧ argv = front ++ "--" :: word :: words ∧
      word.toList.head? ≠ some '-' ∧
      (readDestination (fun _ => none) word.toList = some ⟨none, "build-box".toList⟩ ↔
        '@' ∉ "build-box".toList ∧ sshScheme.isPrefixOf word.toList = false) := by
  obtain ⟨argv, ha⟩ : ∃ argv, sshArgv sampleSsh = .ok argv := ⟨_, rfl⟩
  have hu : ∀ (rest : List Char) (target : SshTarget),
      (none : Option SshTarget) = some target → target.size ≤ rest.length := by
    intro rest target ht
    cases ht
  obtain ⟨front, word, words, hw, hd, hn⟩ := sshArgv_destination_iff hu ha
  exact ⟨argv, front, word, words, ha, hw, hd, hn⟩

/-- A host with an `@` is accepted and dials another host as a user nobody gave, and so is one that
begins like a URI. -/
theorem other_host_dialled :
    (sshArgv (.new "deploy@build-box" ["mango-runtime"])).isOk = true ∧
      readDestination (fun rest => some (splitLastAt rest))
        (sshDestination none "deploy@build-box").toList =
          some ⟨some "deploy".toList, "build-box".toList⟩ ∧
      (sshArgv (.new "ssh://build-box" ["mango-runtime"])).isOk = true ∧
      readDestination (fun rest => some (splitLastAt rest))
        (sshDestination none "ssh://build-box").toList = some ⟨none, "build-box".toList⟩ := by
  refine ⟨?_, ?_, ?_, ?_⟩ <;> decide +kernel

end MangoProtocol
