import PscMockServer.Security.AuthBuilder
import Mathlib.Data.List.Induction

namespace PscMockServer
namespace Server

open Gnmi Security

/-!
# The command line

`main` reads the options one after another, each with its own effect on what is
configured; some end the program.  Then it builds the credentials and runs the server.
`getopt_long` is not modelled: an option is what it returns, with its argument.
-/

/-- What `getopt_long` returns, and `optarg`. -/
inductive CommandOption where
  | unknown
  | help
  | username (optarg : Str)
  | password (optarg : Str)
  | privateKey (optarg : Str)
  | cert (optarg : Str)
  | ca (optarg : Str)
  | logLevel (optarg : Str)
  | bind (optarg : Str)
  | forceInsecure
deriving DecidableEq

/-- `boost::log::trivial::severity_level`, the levels in use. -/
inductive SeverityLevel where
  | debug
  | info
  | warning
  | error
  | fatal
deriving DecidableEq

/-- `_boost_set_log_level`: the filter for a level, which ends the program on an unused one. -/
def boostSetLogLevel (lvl : Int) : Except Halt SeverityLevel :=
  if lvl = 0 then .ok .fatal
  else if lvl = 1 then .ok .error
  else if lvl = 2 then .ok .warning
  else if lvl = 3 then .ok .info
  else if lvl = 4 then .ok .debug
  else .error (.exit 1)

/-- The number that the digits at the head of a text spell, after the digits before them. -/
def leadingNat : Str -> Nat -> Nat
  | [], number => number
  | c :: rest, number =>
      if c.isDigit then leadingNat rest (10 * number + (c.toNat - '0'.toNat)) else number

/-- The characters that `isspace` is true of. -/
def isSpace (c : Char) : Bool :=
  c = ' ' || (9 ≤ c.toNat && c.toNat ≤ 13)

/-- `atoi`: white space, a sign, digits; a number that is no `int` is undefined. -/
def atoi (text : Str) : Except Halt Int :=
  let text := text.dropWhile isSpace
  let number : Int :=
    match text with
    | '-' :: rest => -(leadingNat rest 0 : Int)
    | '+' :: rest => leadingNat rest 0
    | rest => leadingNat rest 0
  if -2147483648 ≤ number ∧ number ≤ 2147483647 then .ok number else .error .undefined

/-- The variables of `main`, and the log filter. -/
structure Configuration where
  bindAddr : Str := "localhost:50051".toList
  auth : AuthBuilder := {}
  logFilter : SeverityLevel := .info
deriving DecidableEq

/-- The body of the option loop. -/
def readOption (conf : Configuration) : CommandOption -> Except Halt Configuration
  | .unknown => .error (.exit 0)
  | .help => .error (.exit 0)
  | .username optarg => .ok { conf with auth := conf.auth.setUsername optarg }
  | .password optarg => .ok { conf with auth := conf.auth.setPassword optarg }
  | .privateKey optarg => .ok { conf with auth := conf.auth.setKeyPath optarg }
  | .cert optarg => .ok { conf with auth := conf.auth.setCertPath optarg }
  | .ca optarg => .ok { conf with auth := conf.auth.setRootCertPath optarg }
  | .logLevel optarg => do
      let lvl <- atoi optarg
      let filter <- boostSetLogLevel lvl
      return { conf with logFilter := filter }
  | .bind optarg => .ok { conf with bindAddr := optarg }
  | .forceInsecure => .ok { conf with auth := conf.auth.setInsecure true }

def readOptions (conf : Configuration) (options : List CommandOption) : Except Halt Configuration :=
  options.foldlM readOption conf

/-- `main`: the address and credentials that `RunServer` is called with. -/
def main (files : Str -> Option Str) (options : List CommandOption) :
    Except Halt (Str × ServerCredentials) := do
  let conf <- readOptions {} options
  let cred <- conf.auth.build files
  return (conf.bindAddr, cred)

/-! ## What the options say -/

/-- The argument of the last option of a kind, or the default. -/
def lastArgument (kind : CommandOption -> Option Str) (default : Str) (options : List CommandOption) : Str :=
  (options.filterMap kind).getLast?.getD default

def CommandOption.usernameArg : CommandOption -> Option Str
  | .username optarg => some optarg
  | _ => none

def CommandOption.passwordArg : CommandOption -> Option Str
  | .password optarg => some optarg
  | _ => none

def CommandOption.privateKeyArg : CommandOption -> Option Str
  | .privateKey optarg => some optarg
  | _ => none

def CommandOption.certArg : CommandOption -> Option Str
  | .cert optarg => some optarg
  | _ => none

def CommandOption.caArg : CommandOption -> Option Str
  | .ca optarg => some optarg
  | _ => none

def CommandOption.bindArg : CommandOption -> Option Str
  | .bind optarg => some optarg
  | _ => none

/-- The authentication settings that the options state. -/
def statedAuth (options : List CommandOption) : AuthBuilder where
  privateKeyPath := lastArgument CommandOption.privateKeyArg [] options
  certPath := lastArgument CommandOption.certArg [] options
  rootCertPath := lastArgument CommandOption.caArg [] options
  username := lastArgument CommandOption.usernameArg [] options
  password := lastArgument CommandOption.passwordArg [] options
  insecure := options.contains .forceInsecure

/-- The end of the program that an option brings about, whatever is configured. -/
def CommandOption.halts : CommandOption -> Option Halt
  | .unknown => some (.exit 0)
  | .help => some (.exit 0)
  | .logLevel optarg =>
      match atoi optarg with
      | .error halt => some halt
      | .ok lvl => if 0 ≤ lvl ∧ lvl ≤ 4 then none else some (.exit 1)
  | _ => none

theorem boostSetLogLevel_cases (lvl : Int) :
    (0 ≤ lvl ∧ lvl ≤ 4 ∧ ∃ filter, boostSetLogLevel lvl = .ok filter) ∨
      ¬ (0 ≤ lvl ∧ lvl ≤ 4) ∧ boostSetLogLevel lvl = .error (.exit 1) := by
  by_cases known : 0 ≤ lvl ∧ lvl ≤ 4
  · refine Or.inl ⟨known.1, known.2, ?_⟩
    have cases_ : lvl = 0 ∨ lvl = 1 ∨ lvl = 2 ∨ lvl = 3 ∨ lvl = 4 := by omega
    rcases cases_ with rfl | rfl | rfl | rfl | rfl
    · exact ⟨.fatal, rfl⟩
    · exact ⟨.error, rfl⟩
    · exact ⟨.warning, rfl⟩
    · exact ⟨.info, rfl⟩
    · exact ⟨.debug, rfl⟩
  · refine Or.inr ⟨known, ?_⟩
    rw [boostSetLogLevel, if_neg (by omega), if_neg (by omega), if_neg (by omega), if_neg (by omega),
      if_neg (by omega)]

theorem lastArgument_snoc (kind : CommandOption -> Option Str) (default : Str)
    (options : List CommandOption) (option : CommandOption) :
    lastArgument kind default (options ++ [option]) =
      (kind option).getD (lastArgument kind default options) := by
  rw [lastArgument, lastArgument, List.filterMap_append]
  cases said : kind option with
  | none =>
      have nothing : [option].filterMap kind = [] := by rw [List.filterMap_cons, said, List.filterMap_nil]
      rw [nothing, List.append_nil]
      rfl
  | some value =>
      have one : [option].filterMap kind = [value] := by rw [List.filterMap_cons, said, List.filterMap_nil]
      rw [one, List.getLast?_concat]
      rfl

/-- One option: it ends the program or configures what it states. -/
theorem readOption_cases (conf : Configuration) (option : CommandOption) :
    (∃ halt, option.halts = some halt ∧ readOption conf option = .error halt) ∨
      option.halts = none ∧ ∃ next, readOption conf option = .ok next ∧
        next.bindAddr = option.bindArg.getD conf.bindAddr ∧ next.auth =
          { privateKeyPath := option.privateKeyArg.getD conf.auth.privateKeyPath
            certPath := option.certArg.getD conf.auth.certPath
            rootCertPath := option.caArg.getD conf.auth.rootCertPath
            username := option.usernameArg.getD conf.auth.username
            password := option.passwordArg.getD conf.auth.password
            insecure := conf.auth.insecure || decide (option = .forceInsecure) } := by
  have kept : conf.auth.insecure = (conf.auth.insecure || false) := (Bool.or_false _).symm
  cases option with
  | unknown => exact Or.inl ⟨_, rfl, rfl⟩
  | help => exact Or.inl ⟨_, rfl, rfl⟩
  | logLevel optarg =>
      cases level : atoi optarg with
      | error halt =>
          refine Or.inl ⟨halt, ?_, ?_⟩
          · rw [CommandOption.halts, level]
          · rw [readOption, level]
            rfl
      | ok lvl =>
          rcases boostSetLogLevel_cases lvl with ⟨low, high, filter, known⟩ | ⟨unknown, failed⟩
          · refine Or.inr ⟨?_, { conf with logFilter := filter }, ?_, rfl, ?_⟩
            · rw [CommandOption.halts, level]
              exact if_pos ⟨low, high⟩
            · rw [readOption, level]
              exact congrArg (fun read => read >>= fun filter => .ok { conf with logFilter := filter }) known
            · exact congrArg (fun insecure => { conf.auth with insecure := insecure }) kept
          · refine Or.inl ⟨.exit 1, ?_, ?_⟩
            · rw [CommandOption.halts, level]
              exact if_neg unknown
            · rw [readOption, level]
              exact congrArg (fun read => read >>= fun filter => .ok { conf with logFilter := filter }) failed
  | forceInsecure =>
      refine Or.inr ⟨rfl, _, rfl, rfl, ?_⟩
      exact congrArg (fun insecure => { conf.auth with insecure := insecure }) (Bool.or_true _).symm
  | bind optarg =>
      exact Or.inr ⟨rfl, _, rfl, rfl, congrArg (fun insecure => { conf.auth with insecure := insecure }) kept⟩
  | username optarg =>
      exact Or.inr ⟨rfl, _, rfl, rfl,
        congrArg (fun insecure => { conf.auth with username := optarg, insecure := insecure }) kept⟩
  | password optarg =>
      exact Or.inr ⟨rfl, _, rfl, rfl,
        congrArg (fun insecure => { conf.auth with password := optarg, insecure := insecure }) kept⟩
  | privateKey optarg =>
      exact Or.inr ⟨rfl, _, rfl, rfl,
        congrArg (fun insecure => { conf.auth with privateKeyPath := optarg, insecure := insecure }) kept⟩
  | cert optarg =>
      exact Or.inr ⟨rfl, _, rfl, rfl,
        congrArg (fun insecure => { conf.auth with certPath := optarg, insecure := insecure }) kept⟩
  | ca optarg =>
      exact Or.inr ⟨rfl, _, rfl, rfl,
        congrArg (fun insecure => { conf.auth with rootCertPath := optarg, insecure := insecure }) kept⟩

/-- The loop: the first option that ends the program does, and else the last option of each
kind counts. -/
theorem readOptions_outcome (options : List CommandOption) :
    match options.findSome? CommandOption.halts with
    | some halt => readOptions {} options = .error halt
    | none => ∃ conf, readOptions {} options = .ok conf ∧
        conf.bindAddr = lastArgument CommandOption.bindArg "localhost:50051".toList options ∧
        conf.auth = statedAuth options := by
  induction options using List.reverseRecOn with
  | nil => exact ⟨{}, rfl, rfl, rfl⟩
  | append_singleton options option inductionHypothesis =>
      have step : readOptions {} (options ++ [option]) =
          readOptions {} options >>= fun conf => readOption conf option := by
        rw [readOptions, List.foldlM_append]
        refine congrArg (fun next => readOptions {} options >>= next) ?_
        funext conf
        rw [List.foldlM_cons]
        exact bind_pure _
      rw [List.findSome?_append]
      cases earlier : options.findSome? CommandOption.halts with
      | some halt =>
          rw [earlier] at inductionHypothesis
          rw [Option.some_or, step, inductionHypothesis]
          rfl
      | none =>
          rw [earlier] at inductionHypothesis
          rcases inductionHypothesis with ⟨conf, before, bindAddr, auth⟩
          rw [Option.none_or, List.findSome?_cons, List.findSome?_nil, step, before]
          rcases readOption_cases conf option with ⟨halt, halts, read⟩ | ⟨goesOn, next, read, nextBind, nextAuth⟩
          · rw [halts]
            exact read
          · rw [goesOn]
            refine ⟨next, read, ?_, ?_⟩
            · rw [nextBind, bindAddr, lastArgument_snoc]
            · rw [nextAuth, auth]
              simp only [statedAuth, lastArgument_snoc, List.contains_append]
              refine congrArg (fun insecure => AuthBuilder.mk _ _ _ _ _ (_ || insecure)) ?_
              cases option <;> rfl

/-- A call the authenticator lets through names the configured user and password: the
buffers of its first entries read as these. -/
theorem process_ok {auth : UserPassAuthenticator} {metadata : InputMetadata} {consumed after : OutputMetadata}
    (passes : auth.process metadata consumed = some (.ok, after)) :
    ∃ userKv passKv, metadata.find "username".toList = some userKv ∧
      metadata.find "password".toList = some passKv ∧
      ReadsAs userKv.2.data auth.username ∧ ReadsAs passKv.2.data auth.password := by
  cases userFound : metadata.find "username".toList with
  | none =>
      rw [UserPassAuthenticator.process, userFound] at passes
      cases passes
  | some userKv =>
      cases passFound : metadata.find "password".toList with
      | none =>
          rw [UserPassAuthenticator.process, userFound, passFound] at passes
          cases passes
      | some passKv =>
          have verdict := process_found auth userFound passFound consumed
          rw [passes] at verdict
          have accepted : auth.refuses userKv.2 passKv.2 = some false := by
            cases refused : auth.refuses userKv.2 passKv.2 with
            | none =>
                rw [refused] at verdict
                cases verdict
            | some answer =>
                rw [refused] at verdict
                cases answer with
                | false => rfl
                | true => cases verdict
          have reads := (auth.refuses_false userKv.2 passKv.2).mp accepted
          exact ⟨userKv, passKv, rfl, rfl, reads.2, reads.1⟩

end Server
end PscMockServer
