import Reckoner.Proofs.CommandLine.Given
import Reckoner.Proofs.Settings.Typing
/-!
The address of the server.

The host and the port of the server come from the arguments where they give them, and else from the
settings, whose rules they have passed. An empty host and the port zero count as not given. That a port
is one, between 1 and 65535, is a rule for settings only: of the arguments it is asked that the port be
an integer, and any other integer than zero is served at.

What is shown here:
1. `commandOf_serve_iff`: the command lines that ask for the server, and what they give;
2. `AsksToServe.number_of_has`: a port that is given is an integer;
3. `Arguments.address_host_ne` and `Arguments.address_valid_iff`: when the address is valid;
4. `serves_once`: the server is started at most once, at this address.
-/

namespace Reckoner

/-- An address that a server can listen at, which is what the rules for settings ask for. -/
structure Address.Valid (a : Address) : Prop where
  host : a.host ≠ ""
  port : ∃ n, a.port = .whole n ∧ 1 ≤ n ∧ n ≤ 65535

namespace CommandLine

/-! ## What the arguments give -/

/-- The host that arguments give. An empty one is none. -/
def Arguments.host? (a : Arguments) : Option String := (a.value? "--host").filter (· ≠ "")

/-- The port that arguments give. Zero is none. -/
def Arguments.port? (a : Arguments) : Option Int := (a.number? "--port").filter (· ≠ 0)

/-- A command line asks for the server and gives arguments for it. -/
def AsksToServe (arguments : List String) (b : Arguments) : Prop :=
  ∃ a rest, Grammar.calculator.parse arguments = .ok a ∧ a.command = some (serveCommand, rest) ∧
    Grammar.serving.parse rest = .ok b ∧ a.extras = [] ∧ b.extras = []

section Command
variable {arguments : List String} {host : Option String} {port : Option Int}

theorem commandOf_of_serveCommand {a : Arguments} {rest : List String}
    (hparse : Grammar.calculator.parse arguments = .ok a)
    (hcommand : a.command = some (serveCommand, rest)) :
    commandOf arguments = match Grammar.serving.parse rest with
      | .error stop => .error ⟨.serving, stop⟩
      | .ok b =>
        if (a.extras ++ b.extras).isEmpty then .ok (.serve (b.value? "--host") (b.number? "--port"))
        else .error ⟨.calculator, .problem (.unrecognized (a.extras ++ b.extras))⟩ := by
  have hread : Grammar.calculator.read arguments = .ok a := by
    rw [Grammar.read, hparse]
  have hother : serveCommand ≠ evalCommand := by decide
  simp only [commandOf, hread, bind, Except.bind, hcommand, if_neg hother]
  rw [Grammar.read]
  cases Grammar.serving.parse rest <;> rfl

theorem serveCommand_of_serve (h : commandOf arguments = .ok (.serve host port)) :
    ∃ a rest, Grammar.calculator.parse arguments = .ok a ∧ a.command = some (serveCommand, rest) := by
  cases hparse : Grammar.calculator.parse arguments with
  | error stop =>
    rw [commandOf, Grammar.read, hparse] at h
    cases h
  | ok a =>
    have hread : Grammar.calculator.read arguments = .ok a := by
      rw [Grammar.read, hparse]
    simp only [commandOf, hread, bind, Except.bind] at h
    split at h
    · cases h
    · rename_i name rest hcommand
      have hname : name ∈ [evalCommand, serveCommand] :=
        (Grammar.parse_of hparse).command (name, rest) hcommand
      split at h
      · cases hrest : Grammar.evaluation.read rest <;> rw [hrest] at h <;> cases h
      · rename_i hother
        obtain rfl : name = serveCommand := by simpa [hother] using hname
        exact ⟨a, rest, rfl, hcommand⟩

/-- The command lines that ask for the server, and what they give. -/
theorem commandOf_serve_iff : commandOf arguments = .ok (.serve host port) ↔
    ∃ b, AsksToServe arguments b ∧ host = b.value? "--host" ∧ port = b.number? "--port" := by
  constructor
  · intro h
    obtain ⟨a, rest, hparse, hcommand⟩ := serveCommand_of_serve h
    rw [commandOf_of_serveCommand hparse hcommand] at h
    split at h
    · cases h
    · rename_i b hserving
      split at h
      · rename_i hempty
        obtain ⟨ha, hb⟩ := List.append_eq_nil_iff.1 (List.isEmpty_iff.1 hempty)
        cases h
        exact ⟨b, ⟨a, rest, hparse, hcommand, hserving, ha, hb⟩, rfl, rfl⟩
      · cases h
  · rintro ⟨b, ⟨a, rest, hparse, hcommand, hserving, ha, hb⟩, rfl, rfl⟩
    rw [commandOf_of_serveCommand hparse hcommand, hserving]
    simp only [ha, hb]
    rfl

end Command

theorem AsksToServe.number_of_has {arguments : List String} {b : Arguments}
    (h : AsksToServe arguments b) (hport : b.has "--port" = true) : ∃ n, b.number? "--port" = some n := by
  obtain ⟨_, _, -, -, hparse, -⟩ := h
  exact (Grammar.parse_of hparse).number_of_has (by decide) hport

/-! ## The address -/

/-- The address is what the arguments give, completed by the settings. -/
def Arguments.address (b : Arguments) (settings : Settings) : Address where
  host := b.host?.getD settings.host
  port := (b.port?.map Quantity.whole).getD settings.port

theorem choose_eq (settings : Settings) (b : Arguments) :
    Address.choose settings (b.value? "--host") (b.number? "--port") = b.address settings := by
  refine congrArg₂ Address.mk ?_ ?_
  · rw [Arguments.host?]
    cases b.value? "--host" with
    | none => rfl
    | some h =>
      rw [Option.filter_some]
      by_cases hempty : h = "" <;> simp [hempty]
  · rw [Arguments.port?]
    cases b.number? "--port" with
    | none => rfl
    | some n =>
      rw [Option.filter_some]
      by_cases hzero : n = 0 <;> simp [hzero]

theorem Arguments.address_host_ne {settings : Settings} (h : settings.Ruled) (b : Arguments) :
    (b.address settings).host ≠ "" := by
  rw [address]
  cases hhost : b.host? with
  | none => exact h.host
  | some host => simpa using (Option.filter_eq_some_iff.1 hhost).2

/-- The address is valid if the port is: one that arguments give where it is in the range, and one of the
settings where it has no point. -/
theorem Arguments.address_valid_iff {settings : Settings} (h : settings.Ruled) (b : Arguments) :
    (b.address settings).Valid ↔
      match b.port? with
      | some n => 1 ≤ n ∧ n ≤ 65535
      | none => ∀ x, settings.port ≠ .pointed x := by
  have hport : (b.address settings).Valid ↔
      ∃ n, (b.address settings).port = .whole n ∧ 1 ≤ n ∧ n ≤ 65535 :=
    ⟨Address.Valid.port, fun hport => ⟨b.address_host_ne h, hport⟩⟩
  rw [hport, address]
  cases b.port? with
  | none => exact Settings.exists_whole_iff h.port
  | some n => simp

/-! ## The program -/

section Run
variable {around : Surroundings} {arguments : List String} {settings : Settings} {b : Arguments}

theorem served_of_asks (hsettings : around.settings = .ok settings) (hasks : AsksToServe arguments b) :
    (run around arguments).served = [b.address settings] := by
  rw [run, commandOf_serve_iff.2 ⟨b, hasks, rfl, rfl⟩]
  simp only [Command.run, hsettings, choose_eq]

theorem asks_of_served {address : Address} (h : address ∈ (run around arguments).served) :
    ∃ settings b, around.settings = .ok settings ∧ AsksToServe arguments b := by
  rw [run] at h
  cases hcommand : commandOf arguments with
  | error r =>
    rw [hcommand] at h
    simp only [Refusal.outcome] at h
    split at h <;> cases h
  | ok command =>
    rw [hcommand] at h
    cases hsettings : around.settings with
    | error e => cases command <;> simp [Command.run, hsettings, Outcome.quiet] at h
    | ok settings =>
      cases command with
      | nothing => cases h
      | evaluate asJson given => simp [Command.run, hsettings] at h
      | serve host port =>
        obtain ⟨b, hasks, -, -⟩ := commandOf_serve_iff.1 hcommand
        exact ⟨settings, b, rfl, hasks⟩

end Run

/-- What is sure of the address of the server, and when it is valid. -/
structure Serving (entries : List (Settings.Scalar × Settings.Value)) (env : Settings.Environment)
    (settings : Settings) (b : Arguments) (address : Address) : Prop where
  host : address.host = b.host?.getD settings.host
  port : address.port = (b.port?.map Quantity.whole).getD settings.port
  host_ne : address.host ≠ ""
  integer : b.has "--port" = true → ∃ n, b.number? "--port" = some n
  valid : address.Valid ↔
    match b.port? with
    | some n => 1 ≤ n ∧ n ≤ 65535
    | none => ∀ x, ¬Settings.GivesPoint entries env .port x

/-- The server is started at most once, at the address that the arguments give, completed by the
settings. Its host is never empty. Its port is in the range of ports if it comes from the settings and
the document did not write it with a point; one that comes from the arguments is an integer, and nothing
else is asked of it. -/
theorem serves_once {document : Option String} {env : Settings.Environment} {input : String}
    {arguments : List String} {address : Address}
    (h : address ∈ (run ⟨Settings.load document env, input⟩ arguments).served) :
    (run ⟨Settings.load document env, input⟩ arguments).served = [address] ∧
      ∃ entries settings b, Settings.Holds document entries ∧
        Settings.load document env = .ok settings ∧ AsksToServe arguments b ∧
          Serving entries env settings b address := by
  obtain ⟨settings, b, hload, hasks⟩ := asks_of_served h
  have hserved := served_of_asks hload hasks
  obtain rfl : address = b.address settings := List.mem_singleton.1 (hserved ▸ h)
  obtain ⟨entries, hholds, hentries⟩ := Settings.holds_of_load hload
  have hkeys := Settings.keysOnce_of_holds hholds
  have hruled := Settings.ruled_of_accepts fun k => (Settings.counts_iff_eq_value hkeys hentries k).1
  have hpointed : ∀ x, settings.port = .pointed x ↔ Settings.GivesPoint entries env .port x := by
    intro x
    rw [← Settings.value_eq_pointed_iff hkeys hentries .port x, Settings.value]
    refine ⟨fun heq => by rw [heq], fun heq => ?_⟩
    exact Settings.Scalar.number.inj (Settings.Value.scalar.inj heq)
  refine ⟨hserved, entries, settings, b, hholds, hload, hasks, ?_⟩
  exact {
    host := rfl
    port := rfl
    host_ne := b.address_host_ne hruled
    integer := hasks.number_of_has
    valid := by simpa only [ne_eq, hpointed] using b.address_valid_iff hruled }

/-- With the port zero the one of a variable counts, and that is valid. -/
theorem serves_once_of_zero_port :
    let env : Settings.Environment := fun name => if name = "CALCSERVE_PORT" then some "9000" else none
    let arguments := ["serve", "--host", "localhost", "--port=0"]
    let address : Address := ⟨"localhost", .whole 9000⟩
    (run ⟨Settings.load none env, ""⟩ arguments).served = [address] ∧ address.Valid := by
  intro env arguments address
  have hmem : address ∈ (run ⟨Settings.load none env, ""⟩ arguments).served := by decide +kernel
  obtain ⟨hserved, entries, settings, b, rfl, -, hasks, hserving⟩ := serves_once hmem
  refine ⟨hserved, hserving.valid.2 ?_⟩
  have hport := hserving.port
  split
  · rename_i n hn
    rw [hn] at hport
    obtain rfl : 9000 = n := Quantity.whole.inj hport
    decide
  · exact fun x hx => List.not_mem_nil hx.2

/-- Not every address that the server is started at is valid: a port given as an argument may be any
integer. -/
theorem not_serves_valid :
    ¬∀ (document : Option String) (env : Settings.Environment) (input : String) (arguments : List String)
      (address : Address), address ∈ (run ⟨Settings.load document env, input⟩ arguments).served →
        (run ⟨Settings.load document env, input⟩ arguments).served = [address] ∧ address.Valid := by
  intro h
  have hmem : (⟨"0.0.0.0", .whole 70000⟩ : Address) ∈
      (run ⟨Settings.load none fun _ => none, ""⟩ ["serve", "--port", "70000"]).served := by
    decide +kernel
  obtain ⟨n, hn, -, hgreatest⟩ := (h _ _ _ _ _ hmem).2.port
  cases hn
  exact absurd hgreatest (by decide)

end CommandLine

end Reckoner
