import MangoProtocol.Transports.Ssh
import MangoProtocol.TypeScript.Ndjson
import MangoProtocol.TypeScript.TypeBox

/-! The `ssh` preset of the TypeScript package, and how far it agrees with that of the crate.  They
differ in what is whitespace: U+0085 is in Unicode and not in the language, U+FEFF in the language
and not in Unicode. -/

namespace MangoProtocol.TypeScript

open ProofKit

structure SshArgvOptions where
  host : JsString
  user : Option JsString
  port : Option JsNumber
  identityFile : Option JsString
  /-- The remote path first, its arguments after. -/
  command : List JsString
  connectTimeoutSeconds : Option JsNumber

def defaultConnectTimeoutSeconds : JsNumber := .finite 10

def portMin : ℚ := 1

def portMax : ℚ := 65535

/-! ### Checks -/

def isSpace (unit : UInt16) : Bool :=
  (9 ≤ unit.toNat && unit.toNat ≤ 13) || unit.toNat == 0x20 || unit.toNat == 0xA0 ||
    unit.toNat == 0x1680 || (0x2000 ≤ unit.toNat && unit.toNat ≤ 0x200A) ||
    unit.toNat == 0x2028 || unit.toNat == 0x2029 || unit.toNat == 0x202F ||
    unit.toNat == 0x205F || unit.toNat == 0x3000 || unit.toNat == 0xFEFF

def isUnfit (name : JsString) : Bool :=
  name.isEmpty || name.head? == some 45 || name.any isSpace

/-- `Number.isInteger`, and the integer. -/
def JsNumber.integer? (number : JsNumber) : Option ℚ :=
  number.value?.filter fun value => value.den == 1

section Argv

-- How the language writes a number.
variable (numberText : JsNumber → String)

/-- The text of a value in an error. -/
def shown (text : JsString) : String := decodeText text.quoted

def checkedName (what : String) (name : JsString) : Except String JsString :=
  if isUnfit name then
    .error ("ssh " ++ what ++ " is " ++ shown name ++ "; expected a non-empty " ++ what ++
      " name without whitespace and not beginning with \"-\"")
  else .ok name

def checkedHost (host : JsString) : Except String JsString := checkedName "host" host

def checkedUser (user : JsString) : Except String JsString := checkedName "user" user

def checkedPort (port : JsNumber) : Except String JsNumber :=
  if port.integer?.all fun value => value < portMin || portMax < value then
    .error ("ssh port is " ++ numberText port ++ "; expected an integer between 1 and 65535")
  else .ok port

def checkedTimeout (seconds : JsNumber) : Except String JsNumber :=
  if seconds.integer?.all fun value => value < (1 : ℚ) then
    .error ("ssh connectTimeoutSeconds is " ++ numberText seconds ++
      "; expected an integer of at least 1 second")
  else .ok seconds

def checkedCommand (command : List JsString) : Except String (JsString × List JsString) :=
  let refusal := "ssh command is [" ++ ",".intercalate (command.map shown) ++
    "]; expected [remotePath, ...remoteArgs] with a non-empty remote path"
  match command with
  | remotePath :: rest => if remotePath.isEmpty then .error refusal else .ok (remotePath, rest)
  | [] => .error refusal

/-! ### Words -/

/-- A quote closes and reopens. -/
def requote (unit : UInt16) : List UInt16 := if unit = 39 then [39, 92, 39, 39] else [unit]

def singleQuote (value : JsString) : JsString := 39 :: (value.flatMap requote ++ [39])

def quoteRemotePath (remotePath : JsString) : JsString :=
  match remotePath with
  | 126 :: 47 :: rest => 126 :: 47 :: singleQuote rest
  | _ => singleQuote remotePath

def sshOptions (connectTimeout : JsNumber) (identityFile : Option JsString)
    (port : Option JsNumber) : List JsString :=
  ["ssh", "-o", "BatchMode=yes", "-o", "ConnectTimeout=" ++ numberText connectTimeout,
    "-o", "ServerAliveInterval=15", "-o", "ServerAliveCountMax=3",
    "-o", "StrictHostKeyChecking=yes", "-o", "ControlMaster=no", "-o", "ControlPath=none",
    "-o", "RemoteCommand=none"].map js ++
  (match identityFile with
    | some identityFile =>
      ["-o", "IdentitiesOnly=yes", "-i"].map js ++ [identityFile]
    | none => []) ++
  (match port with
    | some port => ["-p", numberText port].map js
    | none => []) ++
  ["-T", "--"].map js

def sshDestination (user : Option JsString) (host : JsString) : JsString :=
  match user with
  | some user => user ++ 64 :: host
  | none => host

def sshArgv (options : SshArgvOptions) : Except String (List JsString) := do
  let host ← checkedHost options.host
  let user ← options.user.mapM checkedUser
  let connectTimeout ←
    checkedTimeout numberText (options.connectTimeoutSeconds.getD defaultConnectTimeoutSeconds)
  let (remotePath, remoteArgs) ← checkedCommand options.command
  let port ← options.port.mapM (checkedPort numberText)
  return sshOptions numberText connectTimeout options.identityFile port ++
    sshDestination user host :: quoteRemotePath remotePath :: remoteArgs.map singleQuote

end Argv

/-! ### Texts -/

theorem js_ofList (chars : List Char) : js (String.ofList chars) = chars.flatMap utf16Units := by
  rw [js, String.toList_ofList]

theorem utf16Units_ne_nil (c : Char) : utf16Units c ≠ [] := by
  rw [utf16Units]
  split <;> simp

theorem toNat_of_mem_utf16Units {c : Char} {unit : UInt16} (hu : unit.toNat < 0xd800)
    (hm : unit ∈ utf16Units c) : c.toNat = unit.toNat ∧ utf16Units c = [unit] := by
  rcases Nat.lt_or_ge c.toNat 0x10000 with hp | ha
  · rw [utf16Units, if_pos hp, List.mem_singleton] at hm
    subst hm
    exact ⟨(UInt16.toNat_ofNat_of_lt' hp).symm, if_pos hp⟩
  · grind [utf16Units_astral, isHighSurrogate_iff, isLowSurrogate_iff, List.mem_singleton]

theorem units_eq_cons {chars : List Char} {unit : UInt16} {rest : JsString}
    (hu : unit.toNat < 0xd800) (h : chars.flatMap utf16Units = unit :: rest) :
    ∃ c tail, chars = c :: tail ∧ c.toNat = unit.toNat ∧ tail.flatMap utf16Units = rest := by
  cases chars with
  | nil => cases h
  | cons c tail =>
    grind [utf16Units, utf16Units_ne_nil, List.mem_cons_self, toNat_of_mem_utf16Units,
      List.singleton_append, List.cons.inj]

/-- A character that is whitespace for both. -/
def isSharedSpace (c : Char) : Bool := isWhitespace c && c.toNat != 0x85

theorem any_isSpace (c : Char) :
    (utf16Units c).any isSpace = (isSharedSpace c || c.toNat == 0xFEFF) := by
  rcases Nat.lt_or_ge c.toNat 0x10000 with hp | ha
  · have hun : (UInt16.ofNat c.toNat).toNat = c.toNat := UInt16.toNat_ofNat_of_lt' hp
    rw [utf16Units, if_pos hp, List.any_cons, List.any_nil, Bool.or_false, Bool.eq_iff_iff]
    simp only [isSpace, hun, isSharedSpace, isWhitespace, Bool.or_eq_true, Bool.and_eq_true,
      decide_eq_true_eq, beq_iff_eq, bne_iff_ne]
    omega
  · obtain ⟨high, low, hu, hh, hl, -⟩ := utf16Units_astral ha
    have hh := isHighSurrogate_iff.mp hh
    have hl := isLowSurrogate_iff.mp hl
    rw [hu, Bool.eq_iff_iff]
    simp only [List.any_cons, List.any_nil, Bool.or_false, isSpace, isSharedSpace, isWhitespace,
      Bool.or_eq_true, Bool.and_eq_true, decide_eq_true_eq, beq_iff_eq, bne_iff_ne]
    omega

theorem js_isEmpty (text : String) :
    (js text).isEmpty = text.toList.isEmpty := by
  rw [js]
  cases text.toList with
  | nil => rfl
  | cons c rest => simp [utf16Units_ne_nil]

theorem js_head_dash (text : String) :
    (js text).head? = some 45 ↔ text.toList.head? = some '-' := by
  rw [js]
  constructor
  · intro hh
    obtain ⟨rest, hr⟩ := List.head?_eq_some_iff.mp hh
    obtain ⟨c, tail, ht, hv, -⟩ := units_eq_cons (by decide) hr
    have hd : c = '-' := Char.toNat_inj.mp hv
    rw [ht, hd]
    rfl
  · intro hh
    obtain ⟨tail, ht⟩ := List.head?_eq_some_iff.mp hh
    rw [ht]
    rfl

def isUnfitInBoth (name : String) : Bool :=
  name.toList.isEmpty || name.toList.head? == some '-' || name.toList.any isSharedSpace

def nextLine : Char := '\x85'

def byteOrderMark : Char := '\ufeff'

theorem any_space {space : Char → Bool} {extra : Char}
    (h : ∀ c, space c = (isSharedSpace c || c == extra)) (chars : List Char) :
    chars.any space = (chars.any isSharedSpace || chars.contains extra) := by
  induction chars with
  | nil => rfl
  | cons c chars ih => grind

theorem isUnfit_rust (name : String) :
    MangoProtocol.isUnfit name = (isUnfitInBoth name || name.toList.contains nextLine) := by
  have hs : ∀ c, isWhitespace c = (isSharedSpace c || c == nextLine) := by
    intro c
    have hn : c = nextLine ↔ c.toNat = 0x85 := Char.toNat_inj.symm
    rw [Bool.eq_iff_iff, Bool.or_eq_true, beq_iff_eq, hn, isSharedSpace, Bool.and_eq_true,
      bne_iff_ne]
    constructor
    · grind
    · rintro (⟨hw, -⟩ | hv)
      · exact hw
      · simp [isWhitespace, hv]
  rw [MangoProtocol.isUnfit, any_space hs, isUnfitInBoth, ← Bool.or_assoc]

theorem isUnfit_js (name : String) :
    isUnfit (js name) =
      (isUnfitInBoth name || name.toList.contains byteOrderMark) := by
  have hs : ∀ c, (utf16Units c).any isSpace = (isSharedSpace c || c == byteOrderMark) := by
    intro c
    have hm : c = byteOrderMark ↔ c.toNat = 0xFEFF := Char.toNat_inj.symm
    rw [any_isSpace, Bool.eq_iff_iff, Bool.or_eq_true, Bool.or_eq_true, beq_iff_eq, beq_iff_eq,
      hm]
  have hd : ((js name).head? == some 45) =
      (name.toList.head? == some '-') := by
    rw [Bool.eq_iff_iff, beq_iff_eq, beq_iff_eq]
    exact js_head_dash name
  rw [isUnfit, js_isEmpty, hd, js, List.any_flatMap, any_space hs,
    isUnfitInBoth, ← Bool.or_assoc]

/-! ### Words of a text -/

theorem flatMap_requote (c : Char) :
    (utf16Units c).flatMap requote = (Shell.requote c).flatMap utf16Units := by
  by_cases hq : c = Shell.quote
  · subst hq
    rfl
  · have hp : ∀ unit ∈ utf16Units c, requote unit = [unit] := by
      intro unit hm
      refine if_neg ?_
      rintro rfl
      exact hq (Char.toNat_inj.mp (toNat_of_mem_utf16Units (by decide) hm).1)
    rw [Shell.requote, if_neg hq, List.flatMap_singleton,
      List.flatMap_congr hp, List.flatMap_singleton']

theorem js_singleQuote (value : String) :
    js (MangoProtocol.singleQuote value) =
      singleQuote (js value) := by
  have hb : (value.toList.flatMap Shell.requote).flatMap utf16Units =
      (value.toList.flatMap utf16Units).flatMap requote := by
    rw [List.flatMap_assoc, List.flatMap_assoc]
    exact List.flatMap_congr fun c _ => (flatMap_requote c).symm
  rw [js, singleQuote_toList, Shell.singleQuoted, List.flatMap_cons,
    List.flatMap_append, hb]
  rfl

theorem js_quoteRemotePath (remotePath : String) :
    js (MangoProtocol.quoteRemotePath remotePath) =
      quoteRemotePath (js remotePath) := by
  rw [MangoProtocol.quoteRemotePath]
  split
  · rename_i rest hp
    have hu : js remotePath = 126 :: 47 :: rest.flatMap utf16Units := by
      rw [js, hp]
      rfl
    rw [js_append, js_singleQuote, js_ofList rest, hu]
    rfl
  · rename_i hp
    rw [js_singleQuote]
    unfold quoteRemotePath
    split
    · rename_i rest hu
      obtain ⟨tilde, tail, hte, ht, hta⟩ := units_eq_cons (by decide) hu
      obtain ⟨slash, more, rfl, hs, -⟩ := units_eq_cons (by decide) hta
      have ht : tilde = '~' := Char.toNat_inj.mp ht
      have hs : slash = '/' := Char.toNat_inj.mp hs
      subst ht hs
      exact (hp more hte).elim
    · rfl

/-! ### What is accepted -/

/-- The timeout that is checked. -/
def SshArgvOptions.timeout (options : SshArgvOptions) : JsNumber :=
  options.connectTimeoutSeconds.getD defaultConnectTimeoutSeconds

def JsNumber.isPort (port : JsNumber) : Prop :=
  ∃ value ∈ port.integer?, portMin ≤ value ∧ value ≤ portMax

def JsNumber.isTimeout (seconds : JsNumber) : Prop := ∃ value ∈ seconds.integer?, 1 ≤ value

structure SshArgvOptions.Accepted (options : SshArgvOptions) (remotePath : JsString)
    (remoteArgs : List JsString) : Prop where
  host : isUnfit options.host = false
  user : ∀ user ∈ options.user, isUnfit user = false
  timeout : options.timeout.isTimeout
  command : options.command = remotePath :: remoteArgs
  path : remotePath ≠ []
  port : ∀ port ∈ options.port, port.isPort

section Accepted

variable {numberText : JsNumber → String}

theorem checkedName_eq_ok {what : String} {name found : JsString} :
    checkedName what name = .ok found ↔ isUnfit name = false ∧ found = name := by
  rw [checkedName, refuse_eq_ok, Bool.not_eq_true]

theorem checkedPort_eq_ok {port found : JsNumber} :
    checkedPort numberText port = .ok found ↔ port.isPort ∧ found = port := by
  rw [checkedPort, refuse_eq_ok, JsNumber.isPort]
  cases port.integer? with
  | none => simp
  | some value => simp

theorem checkedTimeout_eq_ok {seconds found : JsNumber} :
    checkedTimeout numberText seconds = .ok found ↔ seconds.isTimeout ∧ found = seconds := by
  rw [checkedTimeout, refuse_eq_ok, JsNumber.isTimeout]
  cases seconds.integer? with
  | none => simp
  | some value => simp

theorem checkedCommand_eq_ok {command remoteArgs : List JsString} {remotePath : JsString} :
    checkedCommand command = .ok (remotePath, remoteArgs) ↔
      command = remotePath :: remoteArgs ∧ remotePath ≠ [] := by
  cases command with
  | nil => simp [checkedCommand]
  | cons first rest =>
    rw [checkedCommand, refuse_eq_ok, List.isEmpty_iff, Prod.mk.injEq, List.cons.injEq]
    constructor
    · rintro ⟨hne, rfl, rfl⟩
      exact ⟨⟨rfl, rfl⟩, hne⟩
    · rintro ⟨⟨rfl, rfl⟩, hne⟩
      exact ⟨hne, rfl, rfl⟩

theorem sshArgv_eq_ok {options : SshArgvOptions} {argv : List JsString} :
    sshArgv numberText options = .ok argv ↔
      ∃ remotePath remoteArgs, options.Accepted remotePath remoteArgs ∧
        argv = sshOptions numberText options.timeout options.identityFile options.port ++
          sshDestination options.user options.host :: quoteRemotePath remotePath ::
            remoteArgs.map singleQuote := by
  have hu {found : Option JsString} : options.user.mapM checkedUser = .ok found ↔
      (∀ user ∈ options.user, isUnfit user = false) ∧ found = options.user :=
    mapM_eq_ok fun _ _ => checkedName_eq_ok
  have hp {found : Option JsNumber} :
      options.port.mapM (checkedPort numberText) = .ok found ↔
        (∀ port ∈ options.port, port.isPort) ∧ found = options.port :=
    mapM_eq_ok fun _ _ => checkedPort_eq_ok
  unfold sshArgv
  simp only [bind_eq_ok_iff, checkedHost, checkedName_eq_ok, hu, checkedTimeout_eq_ok,
    Prod.exists, checkedCommand_eq_ok, hp]
  constructor
  · rintro ⟨_, ⟨hh, rfl⟩, _, ⟨hu, rfl⟩, _, ⟨ht, rfl⟩, remotePath, remoteArgs,
      ⟨hc, hpa⟩, _, ⟨hp, rfl⟩, ha⟩
    exact ⟨remotePath, remoteArgs, ⟨hh, hu, ht, hc, hpa, hp⟩,
      (Except.ok.inj ha).symm⟩
  · rintro ⟨remotePath, remoteArgs, h, rfl⟩
    exact ⟨_, ⟨h.host, rfl⟩, _, ⟨h.user, rfl⟩, _, ⟨h.timeout, rfl⟩, remotePath, remoteArgs,
      ⟨h.command, h.path⟩, _, ⟨h.port, rfl⟩, rfl⟩

end Accepted

/-! ### Both presets -/

/-- The same options in both languages.  The timeout may be left out where it is the default. -/
structure SameOptions (options : SshArgv) (other : SshArgvOptions) : Prop where
  host : other.host = js options.host
  user : other.user = options.user.map js
  port : other.port = options.port.map fun port => .finite port.toNat
  identityFile : other.identityFile = options.identityFile.map js
  command : other.command = options.command.map js
  timeout : other.timeout = .finite options.connectTimeoutSeconds.toNat

/-- The characters of the host and the user. -/
def nameChars (options : SshArgv) : List Char :=
  options.host.toList ++ (options.user.elim [] String.toList)

/-- What both ask of the options. -/
structure AcceptableToBoth (options : SshArgv) (remotePath : String) (remoteArgs : List String) :
    Prop where
  host : isUnfitInBoth options.host = false
  user : ∀ user ∈ options.user, isUnfitInBoth user = false
  timeout : 1 ≤ options.connectTimeoutSeconds
  command : options.command = remotePath :: remoteArgs
  path : remotePath.toList ≠ []
  port : ∀ port ∈ options.port, MangoProtocol.portMin ≤ port

def Agree (rust : Except SshArgvError (List String)) (typescript : Except String (List JsString)) :
    Prop :=
  match rust, typescript with
  | .ok argv, .ok words => words = argv.map js
  | .error _, .error _ => True
  | .ok _, .error _ | .error _, .ok _ => False

section Agreement

variable {options : SshArgv} {other : SshArgvOptions} {remotePath : String}
  {remoteArgs : List String}

theorem not_mem_nameChars {c : Char} :
    c ∉ nameChars options ↔
      options.host.toList.contains c = false ∧
        ∀ user ∈ options.user, user.toList.contains c = false := by
  cases hu : options.user <;> simp [nameChars, hu]

theorem accepted_iff :
    options.Accepted remotePath remoteArgs ↔
      AcceptableToBoth options remotePath remoteArgs ∧ nextLine ∉ nameChars options := by
  rw [not_mem_nameChars]
  constructor
  · intro h
    have hh := h.host
    have hu := h.user
    simp only [isUnfit_rust, Bool.or_eq_false_iff] at hh hu
    exact ⟨⟨hh.1, fun user hm => (hu user hm).1, h.timeout, h.command, h.path, h.port⟩,
      hh.2, fun user hm => (hu user hm).2⟩
  · rintro ⟨h, hh, hu⟩
    refine ⟨?_, fun user hm => ?_, h.timeout, h.command, h.path, h.port⟩
    · rw [isUnfit_rust, h.host, hh]
      rfl
    · rw [isUnfit_rust, h.user user hm, hu user hm]
      rfl

theorem integer_ofNat (n : Nat) : JsNumber.integer? (.finite n) = some (n : ℚ) := by
  simp [JsNumber.integer?, JsNumber.value?, Option.filter]

theorem isPort_toNat (port : UInt16) :
    JsNumber.isPort (.finite port.toNat) ↔ MangoProtocol.portMin ≤ port := by
  have hm : (port.toNat : ℚ) ≤ 65535 := by exact_mod_cast Nat.le_of_lt_succ port.toNat_lt
  have ho : (1 : ℚ) ≤ port.toNat ↔ 1 ≤ port.toNat := Nat.one_le_cast
  simp only [JsNumber.isPort, integer_ofNat, portMin, portMax, Option.mem_def, Option.some.injEq,
    exists_eq_left', hm, and_true, ho]
  rw [UInt16.le_iff_toNat_le]
  rfl

theorem isTimeout_toNat (seconds : UInt32) :
    JsNumber.isTimeout (.finite seconds.toNat) ↔ 1 ≤ seconds := by
  have ho : (1 : ℚ) ≤ seconds.toNat ↔ 1 ≤ seconds.toNat := Nat.one_le_cast
  simp only [JsNumber.isTimeout, integer_ofNat, Option.mem_def, Option.some.injEq,
    exists_eq_left', ho]
  rw [UInt32.le_iff_toNat_le]
  rfl

theorem js_eq_nil {text : String} : js text = [] ↔ text.toList = [] := by
  rw [← List.isEmpty_iff, js_isEmpty, List.isEmpty_iff]

theorem SameOptions.accepted_iff (same : SameOptions options other)
    (hc : options.command = remotePath :: remoteArgs) :
    other.Accepted (js remotePath) (remoteArgs.map js) ↔
      AcceptableToBoth options remotePath remoteArgs ∧ byteOrderMark ∉ nameChars options := by
  rw [not_mem_nameChars]
  have hp : (∀ port ∈ other.port, port.isPort) ↔
      ∀ port ∈ options.port, MangoProtocol.portMin ≤ port := by
    simp [same.port, isPort_toNat]
  have ht : other.timeout.isTimeout ↔ 1 ≤ options.connectTimeoutSeconds := by
    rw [same.timeout, isTimeout_toNat]
  have hw : other.command =
      js remotePath :: remoteArgs.map js := by
    rw [same.command, hc, List.map_cons]
  constructor
  · intro h
    have hh := h.host
    have hu := h.user
    rw [same.host] at hh
    rw [same.user] at hu
    simp only [Option.mem_map, forall_exists_index, and_imp, forall_apply_eq_imp_iff₂,
      isUnfit_js, Bool.or_eq_false_iff] at hh hu
    exact ⟨⟨hh.1, fun user hm => (hu user hm).1, ht.mp h.timeout, hc,
      fun he => h.path (js_eq_nil.mpr he), hp.mp h.port⟩, hh.2,
      fun user hm => (hu user hm).2⟩
  · rintro ⟨h, hh, hu⟩
    refine ⟨?_, ?_, ht.mpr h.timeout, hw,
      fun he => h.path (js_eq_nil.mp he), hp.mpr h.port⟩
    · rw [same.host, isUnfit_js, h.host, hh]
      rfl
    · rw [same.user]
      simp only [Option.mem_map, forall_exists_index, and_imp, forall_apply_eq_imp_iff₂]
      intro user hm
      rw [isUnfit_js, h.user user hm, hu user hm]
      rfl

theorem SameOptions.command_texts (same : SameOptions options other) {path : JsString}
    {args : List JsString} (h : other.Accepted path args) :
    ∃ remotePath remoteArgs, options.command = remotePath :: remoteArgs ∧
      path = js remotePath ∧ args = remoteArgs.map js := by
  have hc := h.command
  rw [same.command] at hc
  obtain ⟨remotePath, remoteArgs, hw, hp, ha⟩ := List.map_eq_cons_iff.mp hc
  exact ⟨remotePath, remoteArgs, hw, hp.symm, ha.symm⟩

variable {numberText : JsNumber → String}

theorem SameOptions.sshOptions_eq (same : SameOptions options other)
    (decimal : ∀ n : Nat, n < 2 ^ 32 → numberText (.finite n) = n.repr) :
    sshOptions numberText other.timeout other.identityFile other.port =
      (MangoProtocol.sshOptions options.connectTimeoutSeconds options.identityFile
        options.port).map js := by
  rw [same.timeout, same.identityFile, same.port]
  unfold sshOptions MangoProtocol.sshOptions
  rw [decimal _ options.connectTimeoutSeconds.toNat_lt, List.map_append, List.map_append,
    List.map_append]
  congr 1
  congr 1
  · congr 1
    cases options.identityFile <;> rfl
  · cases options.port with
    | none => rfl
    | some port =>
      simp only [Option.map_some, decimal _ (port.toNat_lt.trans (by decide))]

theorem SameOptions.sshDestination_eq (same : SameOptions options other) :
    sshDestination other.user other.host =
      js (MangoProtocol.sshDestination options.user options.host) := by
  rw [same.user, same.host]
  cases options.user with
  | none => rfl
  | some user =>
    rw [MangoProtocol.sshDestination, js_append, js_append,
      List.append_assoc]
    rfl

theorem SameOptions.words (same : SameOptions options other)
    (decimal : ∀ n : Nat, n < 2 ^ 32 → numberText (.finite n) = n.repr) (remotePath : String)
    (remoteArgs : List String) :
    sshOptions numberText other.timeout other.identityFile other.port ++
        sshDestination other.user other.host ::
          quoteRemotePath (js remotePath) ::
            (remoteArgs.map js).map singleQuote =
      (MangoProtocol.sshOptions options.connectTimeoutSeconds options.identityFile options.port ++
        MangoProtocol.sshDestination options.user options.host ::
          remoteWords remotePath remoteArgs).map js := by
  have ha : (remoteArgs.map js).map singleQuote =
      (remoteArgs.map MangoProtocol.singleQuote).map js := by
    simp only [List.map_map, Function.comp_def, js_singleQuote]
  rw [same.sshOptions_eq decimal, same.sshDestination_eq, ← js_quoteRemotePath, ha,
    remoteWords, List.map_append, List.map_cons, List.map_cons]

/-- Both refuse, or both return the same words, if and only if the host and the user hold both of
U+0085 and U+FEFF or neither of them, or the options are refused for another reason. -/
theorem sshArgv_agree_iff (same : SameOptions options other)
    (decimal : ∀ n : Nat, n < 2 ^ 32 → numberText (.finite n) = n.repr) :
    Agree (MangoProtocol.sshArgv options) (sshArgv numberText other) ↔
      ((∃ remotePath remoteArgs, AcceptableToBoth options remotePath remoteArgs) →
        (nextLine ∈ nameChars options ↔ byteOrderMark ∈ nameChars options)) := by
  have hru : ∀ remotePath remoteArgs, AcceptableToBoth options remotePath remoteArgs →
      nextLine ∉ nameChars options → (MangoProtocol.sshArgv options).isOk = true := by
    intro remotePath remoteArgs hs hn
    rw [MangoProtocol.sshArgv_eq_ok.mpr
      ⟨remotePath, remoteArgs, accepted_iff.mpr ⟨hs, hn⟩, rfl⟩]
    rfl
  have ht : ∀ remotePath remoteArgs, AcceptableToBoth options remotePath remoteArgs →
      byteOrderMark ∉ nameChars options → (sshArgv numberText other).isOk = true := by
    intro remotePath remoteArgs hs hm
    rw [sshArgv_eq_ok.mpr
      ⟨_, _, (same.accepted_iff hs.command).mpr ⟨hs, hm⟩, rfl⟩]
    rfl
  cases hl : MangoProtocol.sshArgv options with
  | ok argv =>
    obtain ⟨remotePath, remoteArgs, ha, rfl⟩ := MangoProtocol.sshArgv_eq_ok.mp hl
    obtain ⟨hs, hn⟩ := accepted_iff.mp ha
    cases hr : sshArgv numberText other with
    | ok words =>
      obtain ⟨path, args, ho, rfl⟩ := sshArgv_eq_ok.mp hr
      obtain ⟨found, rest, hc, rfl, rfl⟩ := same.command_texts ho
      obtain ⟨-, hm⟩ := (same.accepted_iff hc).mp ho
      cases hs.command.symm.trans hc
      exact iff_of_true (same.words decimal remotePath remoteArgs)
        fun _ => iff_of_false hn hm
    | error error =>
      refine iff_of_false id fun hb => ?_
      have hm : byteOrderMark ∉ nameChars options := fun hme =>
        hn ((hb ⟨remotePath, remoteArgs, hs⟩).mpr hme)
      have hok := ht remotePath remoteArgs hs hm
      rw [hr] at hok
      cases hok
  | error error =>
    have hn : ∀ remotePath remoteArgs, AcceptableToBoth options remotePath remoteArgs →
        nextLine ∈ nameChars options := by
      intro remotePath remoteArgs hs
      by_contra hno
      have hok := hru remotePath remoteArgs hs hno
      rw [hl] at hok
      cases hok
    cases hr : sshArgv numberText other with
    | ok words =>
      obtain ⟨path, args, ho, rfl⟩ := sshArgv_eq_ok.mp hr
      obtain ⟨found, rest, hc, rfl, rfl⟩ := same.command_texts ho
      obtain ⟨hs, hm⟩ := (same.accepted_iff hc).mp ho
      exact iff_of_false id fun hb =>
        hm ((hb ⟨found, rest, hs⟩).mp (hn found rest hs))
    | error refusal =>
      refine iff_of_true trivial ?_
      rintro ⟨remotePath, remoteArgs, hs⟩
      refine iff_of_true (hn remotePath remoteArgs hs) ?_
      by_contra hno
      have hok := ht remotePath remoteArgs hs hno
      rw [hr] at hok
      cases hok

end Agreement

/-- Integers are written in decimal. -/
def integerText (number : JsNumber) : String :=
  match number.integer? with
  | some value => toString value.num
  | none => "NaN"

def sshArgvOptions (options : SshArgv) : SshArgvOptions where
  host := js options.host
  user := options.user.map js
  port := options.port.map fun port => .finite port.toNat
  identityFile := options.identityFile.map js
  command := options.command.map js
  connectTimeoutSeconds := some (.finite options.connectTimeoutSeconds.toNat)

theorem sshArgvOptions_same (options : SshArgv) : SameOptions options (sshArgvOptions options) :=
  ⟨rfl, rfl, rfl, rfl, rfl, rfl⟩

theorem integerText_decimal (n : Nat) : integerText (.finite n) = n.repr := by
  rw [integerText, integer_ofNat]
  rfl

theorem sshArgv_agree_iff_sample :
    Agree (MangoProtocol.sshArgv sampleSsh) (sshArgv integerText (sshArgvOptions sampleSsh)) := by
  refine (sshArgv_agree_iff (sshArgvOptions_same sampleSsh)
    fun n _ => integerText_decimal n).mpr fun _ => ?_
  exact iff_of_false (by decide +kernel) (by decide +kernel)

/-- A host with a byte order mark, and one with the control character NEL. -/
theorem whitespace_differs :
    (MangoProtocol.sshArgv (.new "build\ufeffbox" ["mango-runtime"])).isOk = true ∧
      (sshArgv integerText (sshArgvOptions (.new "build\ufeffbox" ["mango-runtime"]))).isOk =
        false ∧
      (MangoProtocol.sshArgv (.new "build\x85box" ["mango-runtime"])).isOk = false ∧
      (sshArgv integerText (sshArgvOptions (.new "build\x85box" ["mango-runtime"]))).isOk =
        true := by
  refine ⟨?_, ?_, ?_, ?_⟩ <;> decide +kernel

end MangoProtocol.TypeScript
