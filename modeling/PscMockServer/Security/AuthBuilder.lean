import PscMockServer.Security.Authentication

namespace PscMockServer
namespace Security

open Gnmi

/-!
# The credentials of a server

`AuthBuilder` collects what the command line says about authentication and turns it into
the credentials of the listening port, or ends the program.  The files it reads are an
argument: `files path` is the content of the file, if it can be opened.
-/

/-- A program that ended: by `exit`, or in a call whose behaviour is undefined. -/
inductive Halt where
  | exit (code : Int)
  | undefined
deriving DecidableEq

/-- `grpc_ssl_client_certificate_request_type`, the two values in use. -/
inductive ClientCertificateRequest where
  | dontRequest
  | requestAndRequireAndVerify
deriving DecidableEq

structure PemKeyCertPair where
  privateKey : Str
  certChain : Str
deriving DecidableEq

/-- `grpc::SslServerCredentialsOptions`. -/
structure SslServerCredentialsOptions where
  clientCertificateRequest : ClientCertificateRequest
  pemKeyCertPairs : List PemKeyCertPair := []
  pemRootCerts : Str := []
deriving DecidableEq

deriving instance DecidableEq for UserPassAuthenticator

/-- `grpc::ServerCredentials`, with the metadata processor set on TLS credentials. -/
inductive ServerCredentials where
  | insecure
  | ssl (options : SslServerCredentialsOptions) (processor : Option UserPassAuthenticator)
deriving DecidableEq

/-- `GetFileContent`: a file that cannot be opened ends the program. -/
def getFileContent (files : Str -> Option Str) (path : Str) : Except Halt Str :=
  match files path with
  | some content => .ok content
  | none => .error (.exit 1)

/-- `SslCredentialsHelper`. -/
def sslCredentialsHelper (files : Str -> Option Str) (ppath cpath rpath : Str) (clientCert : Bool) :
    Except Halt SslServerCredentialsOptions := do
  let privateKey <- getFileContent files ppath
  let certChain <- getFileContent files cpath
  let rootCerts <- if rpath.isEmpty then .ok [] else getFileContent files rpath
  return {
    clientCertificateRequest := if clientCert then .requestAndRequireAndVerify else .dontRequest
    pemKeyCertPairs := [⟨privateKey, certChain⟩]
    pemRootCerts := rootCerts }

structure AuthBuilder where
  privateKeyPath : Str := []
  certPath : Str := []
  rootCertPath : Str := []
  username : Str := []
  password : Str := []
  insecure : Bool := false
deriving DecidableEq

namespace AuthBuilder

def setKeyPath (auth : AuthBuilder) (keyPath : Str) : AuthBuilder := { auth with privateKeyPath := keyPath }
def setCertPath (auth : AuthBuilder) (certPath : Str) : AuthBuilder := { auth with certPath := certPath }
def setRootCertPath (auth : AuthBuilder) (rootPath : Str) : AuthBuilder := { auth with rootCertPath := rootPath }
def setUsername (auth : AuthBuilder) (user : Str) : AuthBuilder := { auth with username := user }
def setPassword (auth : AuthBuilder) (pass : Str) : AuthBuilder := { auth with password := pass }
def setInsecure (auth : AuthBuilder) (mode : Bool) : AuthBuilder := { auth with insecure := mode }

def build (auth : AuthBuilder) (files : Str -> Option Str) : Except Halt ServerCredentials :=
  if !auth.privateKeyPath.isEmpty && !auth.certPath.isEmpty &&
      auth.username.isEmpty && auth.password.isEmpty then do
    let options <- sslCredentialsHelper files auth.privateKeyPath auth.certPath auth.rootCertPath true
    return .ssl options none
  else if !auth.privateKeyPath.isEmpty && !auth.certPath.isEmpty &&
      !auth.username.isEmpty && !auth.password.isEmpty then do
    let options <- sslCredentialsHelper files auth.privateKeyPath auth.certPath auth.rootCertPath false
    return .ssl options (some ⟨auth.username, auth.password⟩)
  else if auth.insecure then .ok .insecure
  -- user and password without TLS are logged in words of their own, and end alike
  else .error (.exit 1)

/-! ## Which credentials come out -/

/-- Key and certificate are given. -/
def Tls (auth : AuthBuilder) : Prop := auth.privateKeyPath ≠ [] ∧ auth.certPath ≠ []

instance (auth : AuthBuilder) : Decidable auth.Tls :=
  inferInstanceAs (Decidable (_ ∧ _))

/-- What `SslCredentialsHelper` reads, when all of it can be read. -/
def Reads (auth : AuthBuilder) (files : Str -> Option Str) (options : SslServerCredentialsOptions) : Prop :=
  ∃ privateKey certChain, files auth.privateKeyPath = some privateKey ∧
    files auth.certPath = some certChain ∧ options.pemKeyCertPairs = [⟨privateKey, certChain⟩] ∧
    if auth.rootCertPath = [] then options.pemRootCerts = []
    else files auth.rootCertPath = some options.pemRootCerts

theorem sslCredentialsHelper_iff (auth : AuthBuilder) (files : Str -> Option Str) (clientCert : Bool)
    (options : SslServerCredentialsOptions) :
    sslCredentialsHelper files auth.privateKeyPath auth.certPath auth.rootCertPath clientCert = .ok options ↔
      auth.Reads files options ∧ options.clientCertificateRequest =
        if clientCert then .requestAndRequireAndVerify else .dontRequest := by
  rw [sslCredentialsHelper, Reads, getFileContent, getFileContent]
  cases keyFile : files auth.privateKeyPath with
  | none => simp [bind, Except.bind]
  | some privateKey =>
      cases certFile : files auth.certPath with
      | none => simp [bind, Except.bind]
      | some certChain =>
          by_cases noRoot : auth.rootCertPath = []
          · simp only [bind, Except.bind, pure, Except.pure, noRoot, List.isEmpty_nil, if_true,
              Except.ok.injEq, Option.some.injEq]
            constructor
            · rintro rfl
              exact ⟨⟨privateKey, certChain, rfl, rfl, rfl, rfl⟩, rfl⟩
            · rintro ⟨⟨_, _, rfl, rfl, pairs, roots⟩, request⟩
              rw [← pairs, ← roots, ← request]
          · have given : auth.rootCertPath.isEmpty = false := by
              rw [← Bool.not_eq_true, List.isEmpty_iff]
              exact noRoot
            rw [getFileContent]
            cases rootFile : files auth.rootCertPath with
            | none => simp [bind, Except.bind, noRoot]
            | some rootCerts =>
                simp only [bind, Except.bind, pure, Except.pure, given, Bool.false_eq_true, if_false, noRoot,
                  Except.ok.injEq, Option.some.injEq]
                constructor
                · rintro rfl
                  exact ⟨⟨privateKey, certChain, rfl, rfl, rfl, rfl⟩, rfl⟩
                · rintro ⟨⟨_, _, rfl, rfl, pairs, rfl⟩, request⟩
                  rw [← pairs, ← request]

/-- The credentials that some settings stand for: mutual TLS without user and password, user
and password over TLS with both, and no protection at all only on request and only when
neither of the two is configured. -/
def Grants (auth : AuthBuilder) (files : Str -> Option Str) : ServerCredentials -> Prop
  | .insecure => auth.insecure = true ∧ ¬ (auth.Tls ∧ (auth.username = [] ↔ auth.password = []))
  | .ssl options processor => auth.Tls ∧ auth.Reads files options ∧
      (auth.username = [] ∧ auth.password = [] ∧
          options.clientCertificateRequest = .requestAndRequireAndVerify ∧ processor = none ∨
        auth.username ≠ [] ∧ auth.password ≠ [] ∧
          options.clientCertificateRequest = .dontRequest ∧
          processor = some ⟨auth.username, auth.password⟩)

/-- `build` by the settings: each of its outcomes with the condition for it. -/
theorem build_eq (auth : AuthBuilder) (files : Str -> Option Str) :
    auth.build files =
      if auth.Tls ∧ auth.username = [] ∧ auth.password = [] then
        (sslCredentialsHelper files auth.privateKeyPath auth.certPath auth.rootCertPath true).map
          (fun options => ServerCredentials.ssl options none)
      else if auth.Tls ∧ auth.username ≠ [] ∧ auth.password ≠ [] then
        (sslCredentialsHelper files auth.privateKeyPath auth.certPath auth.rootCertPath false).map
          (fun options => ServerCredentials.ssl options (some ⟨auth.username, auth.password⟩))
      else if auth.insecure = true then .ok ServerCredentials.insecure
      else .error (.exit 1) := by
  have bindMap : ∀ (read : Except Halt SslServerCredentialsOptions)
      (make : SslServerCredentialsOptions -> ServerCredentials),
      (do let options <- read; return make options) = read.map make := by
    intro read make
    cases read <;> rfl
  rw [build]
  simp only [bindMap, Bool.and_eq_true, Bool.not_eq_true', List.isEmpty_iff, List.isEmpty_eq_false_iff, Tls,
    and_assoc]

theorem map_ok_iff {α β : Type} {read : Except Halt α} {make : α -> β} {made : β} :
    read.map make = .ok made ↔ ∃ value, read = .ok value ∧ make value = made := by
  cases read with
  | error halt => simp [Except.map]
  | ok value => simp [Except.map]

/-- The credentials of a server are the ones its settings grant. -/
theorem build_iff (auth : AuthBuilder) (files : Str -> Option Str) (cred : ServerCredentials) :
    auth.build files = .ok cred ↔ auth.Grants files cred := by
  rw [build_eq]
  by_cases mutualTls : auth.Tls ∧ auth.username = [] ∧ auth.password = []
  · rw [if_pos mutualTls, map_ok_iff]
    cases cred with
    | insecure => simp [Grants, mutualTls]
    | ssl options processor =>
        simp only [sslCredentialsHelper_iff, Grants, if_true, ServerCredentials.ssl.injEq]
        constructor
        · rintro ⟨read, ⟨reads, request⟩, rfl, rfl⟩
          exact ⟨mutualTls.1, reads, Or.inl ⟨mutualTls.2.1, mutualTls.2.2, request, rfl⟩⟩
        · rintro ⟨_, reads, ⟨_, _, request, rfl⟩ | ⟨given, _⟩⟩
          · exact ⟨options, ⟨reads, request⟩, rfl, rfl⟩
          · exact absurd mutualTls.2.1 given
  · rw [if_neg mutualTls]
    by_cases userPass : auth.Tls ∧ auth.username ≠ [] ∧ auth.password ≠ []
    · rw [if_pos userPass, map_ok_iff]
      cases cred with
      | insecure => simp [Grants, userPass]
      | ssl options processor =>
          simp only [sslCredentialsHelper_iff, Grants, Bool.false_eq_true, if_false,
            ServerCredentials.ssl.injEq]
          constructor
          · rintro ⟨read, ⟨reads, request⟩, rfl, rfl⟩
            exact ⟨userPass.1, reads, Or.inr ⟨userPass.2.1, userPass.2.2, request, rfl⟩⟩
          · rintro ⟨_, reads, ⟨noUser, _⟩ | ⟨_, _, request, rfl⟩⟩
            · exact absurd noUser userPass.2.1
            · exact ⟨options, ⟨reads, request⟩, rfl, rfl⟩
    · rw [if_neg userPass]
      have half : ¬ (auth.Tls ∧ (auth.username = [] ↔ auth.password = [])) := by
        rintro ⟨tls, same⟩
        by_cases noUser : auth.username = []
        · exact mutualTls ⟨tls, noUser, same.mp noUser⟩
        · exact userPass ⟨tls, noUser, fun noPass => noUser (same.mpr noPass)⟩
      cases cred with
      | insecure =>
          rw [Grants, and_iff_left half]
          cases auth.insecure <;> simp
      | ssl options processor =>
          have refused : ¬ auth.Grants files (.ssl options processor) := by
            rintro ⟨tls, _, ⟨noUser, noPass, _⟩ | ⟨user, pass, _⟩⟩
            · exact mutualTls ⟨tls, noUser, noPass⟩
            · exact userPass ⟨tls, user, pass⟩
          cases auth.insecure <;> simp [refused]

/-- A file that cannot be read is the only way the helper fails. -/
theorem sslCredentialsHelper_halt {files : Str -> Option Str} {ppath cpath rpath : Str} {clientCert : Bool}
    {halt : Halt} (halted : sslCredentialsHelper files ppath cpath rpath clientCert = .error halt) :
    halt = .exit 1 := by
  rw [sslCredentialsHelper] at halted
  simp only [getFileContent, bind, Except.bind] at halted
  cases keyFile : files ppath <;> cases certFile : files cpath <;> cases rootFile : files rpath <;>
    cases noRoot : rpath.isEmpty <;> simp_all [pure, Except.pure]

/-- Without credentials the program ends with status 1. -/
theorem build_halt {auth : AuthBuilder} {files : Str -> Option Str} {halt : Halt}
    (halted : auth.build files = .error halt) : halt = .exit 1 := by
  have mapped : ∀ (read : Except Halt SslServerCredentialsOptions)
      (make : SslServerCredentialsOptions -> ServerCredentials),
      read.map make = .error halt -> read = .error halt := by
    intro read make failed
    cases read with
    | error other =>
        cases failed
        rfl
    | ok options => cases failed
  rw [build_eq] at halted
  split at halted
  · exact sslCredentialsHelper_halt (mapped _ _ halted)
  · split at halted
    · exact sslCredentialsHelper_halt (mapped _ _ halted)
    · split at halted
      · cases halted
      · exact (Except.error.inj halted).symm

end AuthBuilder

end Security
end PscMockServer
