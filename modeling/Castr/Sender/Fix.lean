import Castr.Lib.Quoted
import Castr.Lib.Text

/-! The changes that the diagnosis offers: the literal commands that apply each and undo it, and
how such a line is taken apart again before it runs. -/

namespace Castr.Sender.Diagnose

open Castr.Lib.Quoted
open Castr.Lib.Text

structure WlanDriver where
  interface : List Char

structure WlanInterface where
  name : List Char

structure PowerSetting where
  ac : UInt32
  dc : UInt32

/-- What the probes found, as far as a plan reads it. -/
structure Facts where
  driver : Option WlanDriver
  interface : Option WlanInterface
  wifiPower : Option PowerSetting
  usbSuspend : Option PowerSetting

inductive FixId where
  | wifiPowerSaving
  | adapterPowerOff
  | usbSelectiveSuspend
  deriving DecidableEq, Repr

structure FixPlan where
  label : List Char
  apply : List (List Char)
  undo : List (List Char)
  needsAdmin : Bool
  deriving DecidableEq, Repr

def subWifi : List Char := "19cbb8fa-5279-450e-9fac-8a3d5fedd0c1".toList

def settingWifiPower : List Char := "12bbebe6-58d6-4636-95bb-3217ef867c1a".toList

def subUsb : List Char := "2a737441-1930-4402-8d77-b2bebba308a3".toList

def settingUsbSuspend : List Char := "48e6b7a6-50f5-4782-a5d4-53bb8f07e226".toList

def psQuote (s : List Char) : List Char :=
  '\'' :: (s.flatMap (fun c => if c == '\'' then ['\'', c] else [c]) ++ ['\''])

def adapterName (facts : Facts) : List Char :=
  ((facts.interface.map WlanInterface.name).or (facts.driver.map WlanDriver.interface)).getD
    "Wi-Fi".toList

/-- `powercfg /set{source}valueindex SCHEME_CURRENT {sub} {setting} {value}` -/
def setIndex (source sub setting : List Char) (value : UInt32) : List Char :=
  "powercfg /set".toList ++ source ++ "valueindex SCHEME_CURRENT ".toList ++ sub ++
    ' ' :: setting ++ ' ' :: decimal value.toNat

def setBoth (sub setting : List Char) (ac dc : UInt32) : List (List Char) :=
  [setIndex "ac".toList sub setting ac, setIndex "dc".toList sub setting dc,
    "powercfg /setactive SCHEME_CURRENT".toList]

/-- `Set-NetAdapterPowerManagement -Name {n} -AllowComputerToTurnOffDevice {state}` -/
def powerScript (n state : List Char) : List Char :=
  "Set-NetAdapterPowerManagement -Name ".toList ++
    (n ++ (" -AllowComputerToTurnOffDevice ".toList ++ state))

/-- `powershell -NoProfile -NonInteractive -Command "{script}"` -/
def powershellLine (script : List Char) : List Char :=
  "powershell ".toList ++ ("-NoProfile -NonInteractive ".toList ++ ("-Command ".toList ++
    ('"' :: (script ++ ['"']))))

def plan (id : FixId) (facts : Facts) : FixPlan :=
  match id with
  | .wifiPowerSaving =>
      let cur := facts.wifiPower.getD ⟨0, 0⟩
      { label := "Set wireless adapter power saving to maximum performance".toList
        apply := setBoth subWifi settingWifiPower 0 0
        undo := setBoth subWifi settingWifiPower cur.ac cur.dc
        needsAdmin := true }
  | .adapterPowerOff =>
      let rawName := adapterName facts
      if '"' ∈ rawName then
        { label := "Cannot safely quote the adapter name \"".toList ++ rawName ++
            "\" for a PowerShell command; skipping the power-off fix".toList
          apply := []
          undo := []
          needsAdmin := true }
      else
        let n := psQuote rawName
        { label := "Stop Windows powering the adapter down to save energy".toList
          apply := [powershellLine (powerScript n "Disabled".toList)]
          undo := [powershellLine (powerScript n "Enabled".toList)]
          needsAdmin := true }
  | .usbSelectiveSuspend =>
      let cur := facts.usbSuspend.getD ⟨1, 1⟩
      { label := "Disable USB selective suspend".toList
        apply := setBoth subUsb settingUsbSuspend 0 0
        undo := setBoth subUsb settingUsbSuspend cur.ac cur.dc
        needsAdmin := true }

/-- `text.split_once(separator)`, for a separator that is not empty. -/
def splitText (separator : List Char) : List Char → Option (List Char × List Char)
  | [] => none
  | c :: rest =>
      if separator.isPrefixOf (c :: rest) then some ([], (c :: rest).drop separator.length)
      else (splitText separator rest).map (fun parts => (c :: parts.1, parts.2))

def trimMatches (c : Char) (text : List Char) : List Char :=
  (text.dropWhile (· == c)).rdropWhile (· == c)

def extractPowershellScript (line : List Char) : Option (List Char) := do
  let rest ← stripPrefix "powershell ".toList line
  let parts ← splitText "-Command ".toList rest
  some (trimMatches '"' (trim parts.2))

def runCommandLine (line : List Char) : List Char × List (List Char) :=
  let (program, rest) := (splitOnce ' ' line).getD (line, [])
  if program = "powershell".toList then
    let script := (extractPowershellScript line).getD rest
    (program, ["-NoProfile".toList, "-NonInteractive".toList, "-Command".toList, script])
  else (program, words rest)

section Lexing

/-- A quotation mark of the typographic kind, which PowerShell takes for an apostrophe. -/
def curly (c : Char) : Bool := 0x2018 ≤ c.toNat && c.toNat ≤ 0x201b

/-- What is assumed of PowerShell's lexer; which of two quotes in a row it keeps is left open. -/
def powershell (keep : Char → Char → Char) : Shell Char where
  quote c := c == '\'' || curly c
  space := isSpace
  keep := keep

def fixedTokens (name state : List Char) : List (Token Char) :=
  [.word "Set-NetAdapterPowerManagement".toList, .word "-Name".toList, .literal name,
    .word "-AllowComputerToTurnOffDevice".toList, .word state]

def Intact (keep : Char → Char → Char) (name state line : List Char) : Prop :=
  ∃ script, extractPowershellScript line = some script ∧
    lex (powershell keep) .blank script = some (fixedTokens name state)

/-- No command is offered, or both are intact. -/
def Contained (keep : Char → Char → Char) (facts : Facts) : Prop :=
  let offered := plan .adapterPowerOff facts
  offered.apply = [] ∧ offered.undo = [] ∨
    ∃ apply undo, offered.apply = [apply] ∧ offered.undo = [undo] ∧
      Intact keep (adapterName facts) "Disabled".toList apply ∧
      Intact keep (adapterName facts) "Enabled".toList undo

inductive Allow where
  | disabled
  | enabled

def Allow.text : Allow → List Char
  | .disabled => "Disabled".toList
  | .enabled => "Enabled".toList

theorem psQuote_double (name : List Char) :
    psQuote name = '\'' :: (double (· == '\'') name ++ ['\'']) := by
  unfold psQuote double
  congr 2
  refine List.flatMap_congr (fun c _ => ?_)
  by_cases same : (c == '\'') = true
  · rw [if_pos same, if_pos same, eq_of_beq same]
  · rw [if_neg same, if_neg same]

theorem trimMatches_quoted (mark : Char) (text : List Char) (some : text ≠ [])
    (front : ∀ c ∈ text.head?, c ≠ mark) (back : ∀ c ∈ text.getLast?, c ≠ mark) :
    trimMatches mark (mark :: (text ++ [mark])) = text := by
  obtain ⟨c, rest, rfl⟩ := List.exists_cons_of_ne_nil some
  have opens : (c == mark) = false := beq_false_of_ne (front c rfl)
  have first : (mark :: ((c :: rest) ++ [mark])).dropWhile (· == mark) =
      (c :: rest) ++ [mark] := by
    simp [opens]
  rw [trimMatches, first, List.rdropWhile_concat_pos (· == mark) _ mark (beq_self_eq_true mark),
    List.rdropWhile_eq_self_iff]
  intro also same
  exact back _ (List.getLast?_eq_getLast_of_ne_nil also) (eq_of_beq same)

theorem splitText_append (separator front tail : List Char) (some : separator ≠ [])
    (first : ∀ k < front.length, ¬ separator <+: (front ++ separator).drop k) :
    splitText separator (front ++ (separator ++ tail)) = .some (front, tail) := by
  induction front with
  | nil =>
      obtain ⟨c, rest, rfl⟩ := List.exists_cons_of_ne_nil some
      have found : (c :: rest).isPrefixOf (c :: (rest ++ tail)) = true :=
        List.isPrefixOf_iff_prefix.mpr (List.prefix_append (c :: rest) tail)
      rw [List.nil_append, List.cons_append, splitText, if_pos found, ← List.cons_append,
        List.drop_left]
  | cons c front ih =>
      have later := ih (fun k inside => first (k + 1) (Nat.succ_lt_succ inside))
      have here : ¬separator.isPrefixOf (c :: (front ++ (separator ++ tail))) = true := by
        intro found
        have long := List.isPrefixOf_iff_prefix.mp found
        have short : c :: (front ++ separator) <+: c :: (front ++ (separator ++ tail)) := by
          rw [← List.append_assoc]
          exact List.prefix_append (c :: (front ++ separator)) tail
        have fits : separator.length ≤ (c :: (front ++ separator)).length := by
          rw [List.length_cons, List.length_append]
          omega
        exact first 0 (Nat.succ_pos _) (List.prefix_of_prefix_length_le long short fits)
      rw [List.cons_append, splitText, if_neg here, later]
      rfl

theorem extract_of {line rest : List Char} {parts : List Char × List Char}
    (strip : stripPrefix "powershell ".toList line = some rest)
    (cut : splitText "-Command ".toList rest = some parts) :
    extractPowershellScript line = some (trimMatches '"' (trim parts.2)) :=
  Option.bind_eq_some_iff.mpr ⟨rest, strip, Option.bind_eq_some_iff.mpr ⟨parts, cut, rfl⟩⟩

theorem extract_powershellLine (script : List Char) (some : script ≠ [])
    (front : ∀ c ∈ script.head?, c ≠ '"') (back : ∀ c ∈ script.getLast?, c ≠ '"') :
    extractPowershellScript (powershellLine script) = .some script := by
  have strip : stripPrefix "powershell ".toList (powershellLine script) = .some _ :=
    (if_pos (List.prefix_append _ _)).trans (congrArg Option.some List.drop_left)
  have parts := splitText_append "-Command ".toList "-NoProfile -NonInteractive ".toList
    ('"' :: (script ++ ['"'])) (by decide) (by decide +kernel)
  have trimmed : trim ('"' :: (script ++ ['"'])) = '"' :: (script ++ ['"']) :=
    trim_solid '"' script '"' (by decide) (by decide)
  have bare := trimMatches_quoted '"' script some front back
  exact (extract_of strip parts).trans
    (congrArg Option.some ((congrArg (trimMatches '"') trimmed).trans bare))

theorem extract_powerScript (n : List Char) (allow : Allow) :
    extractPowershellScript (powershellLine (powerScript n allow.text)) =
      some (powerScript n allow.text) := by
  have some : "Set-NetAdapterPowerManagement -Name ".toList ≠ [] := by decide
  have first : "Set-NetAdapterPowerManagement -Name ".toList.head? = .some 'S' := by decide
  have last : allow.text.getLast? = .some 'd' := by
    cases allow with
    | disabled => decide
    | enabled => decide
  have front : (powerScript n allow.text).head? = .some 'S' :=
    List.head?_append_of_ne_nil _ some |>.trans first
  have back : (powerScript n allow.text).getLast? = .some 'd' := by
    unfold powerScript
    rw [List.getLast?_append, List.getLast?_append, List.getLast?_append, last]
    rfl
  refine extract_powershellLine _ (List.append_ne_nil_of_left_ne_nil some _) ?_ ?_
  · rw [front]
    intro c first
    cases first
    decide
  · rw [back]
    intro c last
    cases last
    decide

theorem run_powerScript (n : List Char) (allow : Allow) :
    runCommandLine (powershellLine (powerScript n allow.text)) =
      ("powershell".toList, ["-NoProfile".toList, "-NonInteractive".toList, "-Command".toList,
        powerScript n allow.text]) := by
  have extracted := extract_powerScript n allow
  generalize powerScript n allow.text = script at extracted ⊢
  have word : "powershell ".toList = "powershell".toList ++ [' '] := by decide
  have cut : splitOnce ' ' (powershellLine script) = some ("powershell".toList, _) :=
    (congrArg (fun front => splitOnce ' ' (front ++ _)) word).trans
      ((congrArg (splitOnce ' ') (List.append_assoc _ _ _)).trans
        (splitOnce_append ' ' "powershell".toList _ (by decide)))
  unfold runCommandLine
  rw [cut, extracted]
  exact if_pos rfl

theorem lex_script (keep : Char → Char → Char) (text : List Char) :
    lex (powershell keep) .blank ("Set-NetAdapterPowerManagement -Name ".toList ++ '\'' :: text) =
      ((lex (powershell keep) (.literal []) text).map (.word "-Name".toList :: ·)).map
        (.word "Set-NetAdapterPowerManagement".toList :: ·) := by
  rfl

theorem lex_rest (keep : Char → Char → Char) (name : List Char) (allow : Allow) :
    lex (powershell keep) (.closing name '\'')
        (" -AllowComputerToTurnOffDevice ".toList ++ allow.text) =
      some [.literal name, .word "-AllowComputerToTurnOffDevice".toList, .word allow.text] := by
  cases allow with
  | disabled => rfl
  | enabled => rfl

theorem rest_plain (allow : Allow) :
    ∀ c ∈ " -AllowComputerToTurnOffDevice ".toList ++ allow.text,
      (c == '\'' || curly c) = false := by
  have none : (" -AllowComputerToTurnOffDevice ".toList ++ allow.text).any
      (fun c => c == '\'' || curly c) = false := by
    cases allow with
    | disabled => decide +kernel
    | enabled => decide +kernel
  intro c member
  exact Bool.eq_false_iff.mpr (List.any_eq_false.mp none c member)

theorem curly_iff (c : Char) : (c == '\'') = (c == '\'' || curly c) ↔ curly c = false := by
  by_cases same : c = '\''
  · subst same
    decide
  · rw [beq_false_of_ne same, Bool.false_or]
    exact eq_comm

theorem powerScript_psQuote (name state : List Char) :
    powerScript (psQuote name) state = "Set-NetAdapterPowerManagement -Name ".toList ++
      '\'' :: (double (· == '\'') name ++
        '\'' :: (" -AllowComputerToTurnOffDevice ".toList ++ state)) := by
  unfold powerScript
  rw [psQuote_double, List.cons_append, List.append_assoc, List.singleton_append]

variable {keep : Char → Char → Char}

theorem intact_iff (keeps : (powershell keep).Keeps) (name : List Char) (allow : Allow) :
    Intact keep name allow.text (powershellLine (powerScript (psQuote name) allow.text)) ↔
      ∀ c ∈ name, curly c = false := by
  have extracted := extract_powerScript (psQuote name) allow
  have read := lex_script keep (double (· == '\'') name ++
    '\'' :: (" -AllowComputerToTurnOffDevice ".toList ++ allow.text))
  constructor
  · rintro ⟨script, found, whole⟩
    obtain rfl := Option.some.inj (extracted.symm.trans found)
    rw [powerScript_psQuote] at whole
    have tokens := read.symm.trans whole
    obtain ⟨outer, inner, same⟩ := Option.map_eq_some_iff.mp tokens
    obtain ⟨rest, literal, rfl⟩ := Option.map_eq_some_iff.mp inner
    obtain ⟨_, same⟩ := List.cons.inj same
    obtain ⟨_, rfl⟩ := List.cons.inj same
    intro c member
    have agree := double_whole keeps (fun d is => Bool.or_eq_true_iff.mpr (.inl is))
      (rest_plain allow) literal c member
    exact (curly_iff c).mp agree
  · intro straight
    have literal := lex_double keeps name []
      (" -AllowComputerToTurnOffDevice ".toList ++ allow.text) '\'' rfl
      (fun c member => (curly_iff c).mpr (straight c member))
    refine ⟨_, extracted, ?_⟩
    rw [powerScript_psQuote, read, literal, List.nil_append, lex_rest]
    rfl

end Lexing

/-- The plan for an adapter is contained exactly when it offers no command, or the adapter's name
has no typographic quotation mark. -/
theorem contained_iff (keep : Char → Char → Char)
    (keeps : ∀ first second, keep first second = first ∨ keep first second = second)
    (facts : Facts) : Contained keep facts ↔
      '"' ∈ adapterName facts ∨ ∀ c ∈ adapterName facts, curly c = false := by
  have each := intact_iff keeps (adapterName facts)
  unfold Contained plan
  dsimp only
  by_cases double : '"' ∈ adapterName facts
  · rw [if_pos double]
    exact iff_of_true (.inl ⟨rfl, rfl⟩) (.inl double)
  · rw [if_neg double, or_iff_right double]
    dsimp only
    constructor
    · rintro (⟨none, _⟩ | ⟨apply, undo, first, second, off, on⟩)
      · cases none
      · obtain rfl := List.singleton_inj.mp first
        exact (each .disabled).mp off
    · intro straight
      exact .inr ⟨_, _, rfl, rfl, (each .disabled).mpr straight, (each .enabled).mpr straight⟩

/-- An apostrophe is doubled, and the name is whole. -/
theorem contained_iff_apostrophe :
    Contained (fun _ second => second) ⟨none, some ⟨"Bob's Wi-Fi".toList⟩, none, none⟩ :=
  (contained_iff (fun _ second => second) (fun _ _ => .inr rfl) _).mpr (.inr (fun c member =>
    Bool.eq_false_iff.mpr (List.any_eq_false.mp
      (show (adapterName ⟨none, some ⟨"Bob's Wi-Fi".toList⟩, none, none⟩).any curly = false by
        decide +kernel) c member)))

/-- A name with two typographic marks ends the literal, and what is between them is read as words
of the command. -/
def breakout : Facts := ⟨none, some ⟨"Wi-Fi\u2019; calc; \u2018".toList⟩, none, none⟩

theorem breakout_runs : ¬ Contained (fun _ second => second) breakout ∧
    ∃ line script, (plan .adapterPowerOff breakout).apply = [line] ∧
      extractPowershellScript line = some script ∧
      lex (powershell (fun _ second => second)) .blank script =
        some [.word "Set-NetAdapterPowerManagement".toList, .word "-Name".toList,
          .literal "Wi-Fi".toList, .word ";".toList, .word "calc;".toList, .literal [],
          .word "-AllowComputerToTurnOffDevice".toList, .word "Disabled".toList] := by
  have plain : ('"' ∈ adapterName breakout) = False := eq_false (by decide +kernel)
  have offered : (plan .adapterPowerOff breakout).apply =
      [powershellLine (powerScript (psQuote (adapterName breakout)) Allow.disabled.text)] := by
    unfold plan
    simp only [plain, if_false]
    rfl
  refine ⟨?_, _, _, offered, extract_powerScript _ .disabled, by decide +kernel⟩
  rintro (⟨none, _⟩ | ⟨apply, undo, first, _, off, _⟩)
  · rw [offered] at none
    cases none
  · obtain rfl := List.singleton_inj.mp (offered.symm.trans first)
    have straight := (intact_iff (fun _ _ => .inr rfl) (adapterName breakout) .disabled).mp off
    exact absurd (straight (Char.ofNat 0x2019) (by decide +kernel)) (by decide)

end Castr.Sender.Diagnose
