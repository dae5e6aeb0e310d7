import PscMockServer.Gnmi.Messages

namespace PscMockServer
namespace Security

open Gnmi

/-!
# User and password authentication

The metadata of a call arrives as references into a buffer, each with its own length.
`UserPassAuthenticator::Process` compares them through the pointer alone, so what it reads
ends at the first NUL of the buffer, wherever the length says the value ends.
-/

/-- The byte that ends a C string. -/
def NUL : Char := Char.ofNat 0

/-! ## Strings by reference -/

/-- A `grpc::string_ref`: its own bytes, and those that follow them in the same buffer. -/
structure StringRef where
  value : Str
  beyond : Str
deriving DecidableEq

namespace StringRef

/-- The bytes from `data()` to the end of the buffer. -/
def data (ref : StringRef) : Str := ref.value ++ ref.beyond

def length (ref : StringRef) : Nat := ref.value.length

/-- `std::string(ref.data(), ref.length())`. -/
def copied (ref : StringRef) : Str := ref.data.take ref.length

@[simp] theorem copied_eq (ref : StringRef) : ref.copied = ref.value :=
  List.take_left

end StringRef

/-- The C string at the head of a buffer: the bytes before its first NUL.  The scan of a
buffer without one runs past its end, which is undefined. -/
def cString : Str -> Option Str
  | [] => none
  | c :: rest => if c = NUL then some [] else (cString rest).map (fun text => c :: text)

/-- The buffer begins with `text` and a NUL. -/
def ReadsAs (buffer text : Str) : Prop :=
  NUL ∉ text ∧ text ++ [NUL] <+: buffer

instance (buffer text : Str) : Decidable (ReadsAs buffer text) :=
  inferInstanceAs (Decidable (_ ∧ _))

theorem cString_some (buffer text : Str) : cString buffer = some text ↔ ReadsAs buffer text := by
  induction buffer generalizing text with
  | nil => simp [cString, ReadsAs]
  | cons c rest inductionHypothesis =>
      by_cases ends : c = NUL
      · subst ends
        rw [cString, if_pos rfl, Option.some_inj]
        constructor
        · rintro rfl
          exact ⟨List.not_mem_nil, List.cons_prefix_cons.mpr ⟨rfl, List.nil_prefix⟩⟩
        · rintro ⟨free, front⟩
          cases text with
          | nil => rfl
          | cons head tail =>
              have same : head = NUL := (List.cons_prefix_cons.mp front).1
              exact absurd (same ▸ List.mem_cons_self) free
      · rw [cString, if_neg ends, Option.map_eq_some_iff]
        constructor
        · rintro ⟨tail, read, rfl⟩
          obtain ⟨free, front⟩ := (inductionHypothesis tail).mp read
          refine ⟨fun member => ?_, List.cons_prefix_cons.mpr ⟨rfl, front⟩⟩
          cases List.mem_cons.mp member with
          | inl same => exact ends same.symm
          | inr deeper => exact free deeper
        · rintro ⟨free, front⟩
          cases text with
          | nil => exact absurd (List.cons_prefix_cons.mp front).1.symm ends
          | cons head tail =>
              obtain ⟨rfl, behind⟩ := List.cons_prefix_cons.mp front
              have freeTail : NUL ∉ tail := fun member => free (List.mem_cons_of_mem head member)
              exact ⟨tail, (inductionHypothesis tail).mpr ⟨freeTail, behind⟩, rfl⟩

theorem cString_none (buffer : Str) : cString buffer = none ↔ NUL ∉ buffer := by
  induction buffer with
  | nil => simp [cString]
  | cons c rest inductionHypothesis =>
      by_cases ends : c = NUL
      · subst ends
        simp [cString]
      · rw [cString, if_neg ends, Option.map_eq_none_iff, inductionHypothesis, List.mem_cons]
        exact ⟨fun free => fun member => member.elim (fun same => ends same.symm) free,
          fun free member => free (Or.inr member)⟩

/-- A buffer reads as the bytes of a value when these hold no NUL and one follows them. -/
theorem readsAs_value (ref : StringRef) :
    ReadsAs ref.data ref.value ↔ NUL ∉ ref.value ∧ [NUL] <+: ref.beyond := by
  rw [ReadsAs, StringRef.data, List.prefix_append_right_inj]

/-! ## The authenticator -/

/-- A multimap of metadata, as its entries in the order of its iteration. -/
abbrev InputMetadata := List (StringRef × StringRef)

abbrev OutputMetadata := List (Str × Str)

/-- `std::multimap::find`: the first entry whose key, up to its length, is this one. -/
def InputMetadata.find (metadata : InputMetadata) (key : Str) : Option (StringRef × StringRef) :=
  metadata.find? (fun entry => entry.1.value = key)

/-- `std::multimap::insert`: behind every entry with the same key or a smaller one. -/
def OutputMetadata.insert (entry : Str × Str) : OutputMetadata -> OutputMetadata
  | [] => [entry]
  | head :: rest =>
      if entry.1 < head.1 then entry :: head :: rest else head :: OutputMetadata.insert entry rest

inductive Verdict where
  | ok
  | unauthenticated (message : Str)
deriving DecidableEq

structure UserPassAuthenticator where
  username : Str
  password : Str

/-- `configured.compare(pointer) != 0`, none where the scan of the buffer is undefined. -/
def compareDiffers (configured buffer : Str) : Option Bool :=
  (cString buffer).map (fun text => decide (configured ≠ text))

namespace UserPassAuthenticator

/-- The condition under which `Process` refuses the two values; the user name is read only
if the password is right. -/
def refuses (auth : UserPassAuthenticator) (user pass : StringRef) : Option Bool :=
  match compareDiffers auth.password pass.data with
  | some false => compareDiffers auth.username user.data
  | decided => decided

/-- `UserPassAuthenticator::Process`, with the metadata consumed so far: its verdict and
the metadata consumed afterwards. -/
def process (auth : UserPassAuthenticator) (metadata : InputMetadata) (consumed : OutputMetadata) :
    Option (Verdict × OutputMetadata) :=
  match metadata.find "username".toList with
  | none => some (.unauthenticated "No username field".toList, consumed)
  | some userKv =>
      match metadata.find "password".toList with
      | none => some (.unauthenticated "No password field".toList, consumed)
      | some passKv =>
          match auth.refuses userKv.2 passKv.2 with
          | none => none
          | some true => some (.unauthenticated "Invalid username/password".toList, consumed)
          | some false =>
              some (.ok, OutputMetadata.insert (passKv.1.copied, passKv.2.copied)
                (OutputMetadata.insert (userKv.1.copied, userKv.2.copied) consumed))

end UserPassAuthenticator

/-! ## What is read of two values -/

theorem compareDiffers_false (configured buffer : Str) :
    compareDiffers configured buffer = some false ↔ ReadsAs buffer configured := by
  rw [compareDiffers, Option.map_eq_some_iff]
  constructor
  · rintro ⟨text, read, same⟩
    have equal : configured = text := by simpa using same
    exact equal ▸ (cString_some buffer text).mp read
  · intro reads
    exact ⟨configured, (cString_some buffer configured).mpr reads, by simp⟩

theorem compareDiffers_true (configured buffer : Str) :
    compareDiffers configured buffer = some true ↔ NUL ∈ buffer ∧ ¬ ReadsAs buffer configured := by
  constructor
  · intro differs
    refine ⟨?_, fun reads => ?_⟩
    · by_contra free
      rw [compareDiffers, (cString_none buffer).mpr free] at differs
      cases differs
    · rw [(compareDiffers_false configured buffer).mpr reads] at differs
      cases differs
  · rintro ⟨ends, other⟩
    cases read : cString buffer with
    | none => exact absurd ends ((cString_none buffer).mp read)
    | some text =>
        have different : configured ≠ text := by
          rintro rfl
          exact other ((cString_some buffer configured).mp read)
        rw [compareDiffers, read, Option.map_some, decide_eq_true different]

namespace UserPassAuthenticator

variable (auth : UserPassAuthenticator) (user pass : StringRef)

theorem refuses_false : auth.refuses user pass = some false ↔
    ReadsAs pass.data auth.password ∧ ReadsAs user.data auth.username := by
  rw [← compareDiffers_false, ← compareDiffers_false, refuses]
  split
  · rename_i right
    exact ⟨fun same => ⟨right, same⟩, fun both => both.2⟩
  · rename_i wrong
    exact ⟨fun same => absurd same wrong, fun both => absurd both.1 wrong⟩

theorem refuses_true : auth.refuses user pass = some true ↔
    (NUL ∈ pass.data ∧ ¬ ReadsAs pass.data auth.password) ∨
      (ReadsAs pass.data auth.password ∧ NUL ∈ user.data ∧ ¬ ReadsAs user.data auth.username) := by
  rw [← compareDiffers_true, ← compareDiffers_true, ← compareDiffers_false, refuses]
  split
  · rename_i right
    rw [right]
    exact ⟨fun same => Or.inr ⟨rfl, same⟩, fun either => either.elim (fun wrong => nomatch wrong) And.right⟩
  · rename_i wrong
    exact ⟨Or.inl, fun either => either.elim id (fun both => absurd both.1 wrong)⟩

end UserPassAuthenticator

/-! ## When the comparison is exact -/

/-- The first entries of the two fields exist, and their values are the configured ones. -/
def RightCredentials (auth : UserPassAuthenticator) (metadata : InputMetadata) : Prop :=
  ∃ userKv passKv, metadata.find "username".toList = some userKv ∧
    metadata.find "password".toList = some passKv ∧
    userKv.2.value = auth.username ∧ passKv.2.value = auth.password

/-- The call has a verdict, which is OK exactly for the right credentials. -/
def ComparesExactly (auth : UserPassAuthenticator) (metadata : InputMetadata) : Prop :=
  ∀ consumed, ∃ verdict after, auth.process metadata consumed = some (verdict, after) ∧
    (verdict = .ok ↔ RightCredentials auth metadata)

/-- The buffers of the two values end them as their lengths do: right values hold no NUL
and one follows each of them, wrong ones are read as something else than the configured
strings, by a scan that meets a NUL. -/
def BuffersFit (auth : UserPassAuthenticator) (user pass : StringRef) : Prop :=
  if user.value = auth.username ∧ pass.value = auth.password then
    (NUL ∉ user.value ∧ [NUL] <+: user.beyond) ∧ (NUL ∉ pass.value ∧ [NUL] <+: pass.beyond)
  else
    NUL ∈ pass.data ∧
      (ReadsAs pass.data auth.password -> NUL ∈ user.data ∧ ¬ ReadsAs user.data auth.username)

instance (auth : UserPassAuthenticator) (user pass : StringRef) : Decidable (BuffersFit auth user pass) :=
  inferInstanceAs (Decidable (ite ..))

variable {auth : UserPassAuthenticator} {metadata : InputMetadata}

/-- What a call sends: each key and value up to its length. -/
def received (metadata : InputMetadata) : List (Str × Str) :=
  metadata.map (fun entry => (entry.1.value, entry.2.value))

/-- Whether credentials are right is a matter of what was sent. -/
theorem rightCredentials_received (auth : UserPassAuthenticator) (metadata : InputMetadata) :
    RightCredentials auth metadata ↔
      ((received metadata).find? (fun entry => entry.1 = "username".toList)).map Prod.snd =
          some auth.username ∧
        ((received metadata).find? (fun entry => entry.1 = "password".toList)).map Prod.snd =
          some auth.password := by
  have first : ∀ key, ((received metadata).find? (fun entry => entry.1 = key)).map Prod.snd =
      (metadata.find key).map (fun entry => entry.2.value) := by
    intro key
    rw [received, List.find?_map, Option.map_map]
    rfl
  rw [first, first, Option.map_eq_some_iff, Option.map_eq_some_iff]
  constructor
  · rintro ⟨userKv, passKv, userFound, passFound, sameUser, samePass⟩
    exact ⟨⟨userKv, userFound, sameUser⟩, ⟨passKv, passFound, samePass⟩⟩
  · rintro ⟨⟨userKv, userFound, sameUser⟩, ⟨passKv, passFound, samePass⟩⟩
    exact ⟨userKv, passKv, userFound, passFound, sameUser, samePass⟩

/-- Two calls that send the same get one answer wherever the comparison is exact, whatever
lies behind their values. -/
theorem ComparesExactly.beyond_ignored {other : InputMetadata} (exact : ComparesExactly auth metadata)
    (otherExact : ComparesExactly auth other) (same : received metadata = received other)
    (consumed : OutputMetadata) :
    (auth.process metadata consumed).map (fun answer => decide (answer.1 = .ok)) =
      (auth.process other consumed).map (fun answer => decide (answer.1 = .ok)) := by
  obtain ⟨verdict, after, answered, okay⟩ := exact consumed
  obtain ⟨otherVerdict, otherAfter, otherAnswered, otherOkay⟩ := otherExact consumed
  rw [answered, otherAnswered, Option.map_some, Option.map_some, Option.some_inj, decide_eq_decide, okay,
    otherOkay, rightCredentials_received, rightCredentials_received, same]

theorem rightCredentials_found {userKv passKv : StringRef × StringRef}
    (userFound : metadata.find "username".toList = some userKv)
    (passFound : metadata.find "password".toList = some passKv) :
    RightCredentials auth metadata ↔
      userKv.2.value = auth.username ∧ passKv.2.value = auth.password := by
  constructor
  · rintro ⟨otherUser, otherPass, sameUser, samePass, right⟩
    cases userFound.symm.trans sameUser
    cases passFound.symm.trans samePass
    exact right
  · exact fun right => ⟨userKv, passKv, userFound, passFound, right⟩

/-- The verdict on two values that are there. -/
theorem process_found (auth : UserPassAuthenticator) {userKv passKv : StringRef × StringRef}
    (userFound : metadata.find "username".toList = some userKv)
    (passFound : metadata.find "password".toList = some passKv) (consumed : OutputMetadata) :
    (auth.process metadata consumed).map (fun answer => decide (answer.1 = .ok)) =
      (auth.refuses userKv.2 passKv.2).map not := by
  rw [UserPassAuthenticator.process, userFound, passFound]
  dsimp only
  rcases auth.refuses userKv.2 passKv.2 with _ | _ | _
  · rfl
  · rfl
  · rfl

/-- A call without one of the fields is refused, as it should be. -/
theorem comparesExactly_missing (missing : metadata.find "username".toList = none ∨
    metadata.find "password".toList = none) : ComparesExactly auth metadata := by
  intro consumed
  have wrong : ¬ RightCredentials auth metadata := by
    rintro ⟨userKv, passKv, userFound, passFound, right⟩
    cases missing with
    | inl absent => cases absent.symm.trans userFound
    | inr absent => cases absent.symm.trans passFound
  have refused : ∃ message, auth.process metadata consumed = some (.unauthenticated message, consumed) := by
    rw [UserPassAuthenticator.process]
    cases userFound : metadata.find "username".toList with
    | none => exact ⟨_, rfl⟩
    | some userKv =>
        have absent : metadata.find "password".toList = none :=
          missing.resolve_left (fun none => nomatch userFound.symm.trans none)
        rw [absent]
        exact ⟨_, rfl⟩
  obtain ⟨message, answered⟩ := refused
  exact ⟨_, _, answered, iff_of_false Verdict.noConfusion wrong⟩

/-- For two values that are there the comparison is exact if what `Process` makes of them
is right. -/
theorem comparesExactly_iff_refuses {userKv passKv : StringRef × StringRef}
    (userFound : metadata.find "username".toList = some userKv)
    (passFound : metadata.find "password".toList = some passKv) :
    ComparesExactly auth metadata ↔ ∃ refused, auth.refuses userKv.2 passKv.2 = some refused ∧
      (refused = false ↔ userKv.2.value = auth.username ∧ passKv.2.value = auth.password) := by
  have opposite : ∀ refused, (!refused) = true ↔ refused = false := by decide
  rw [ComparesExactly, rightCredentials_found userFound passFound]
  constructor
  · intro exact
    obtain ⟨verdict, after, answered, okay⟩ := exact []
    have decided := process_found auth userFound passFound []
    rw [answered, Option.map_some] at decided
    obtain ⟨refused, known, negated⟩ := Option.map_eq_some_iff.mp decided.symm
    refine ⟨refused, known, ?_⟩
    rw [← okay, ← decide_eq_true_iff (p := verdict = .ok), ← negated, opposite]
  · rintro ⟨refused, known, right⟩ consumed
    have decided := process_found auth userFound passFound consumed
    rw [known, Option.map_some] at decided
    obtain ⟨⟨verdict, after⟩, answered, okay⟩ := Option.map_eq_some_iff.mp decided
    refine ⟨verdict, after, answered, ?_⟩
    rw [← right, ← decide_eq_true_iff (p := verdict = .ok), okay, opposite]

theorem ReadsAs.nul_mem {buffer text : Str} (reads : ReadsAs buffer text) : NUL ∈ buffer :=
  reads.2.subset (List.mem_append_right text List.mem_cons_self)

/-- What `Process` makes of two values is right where their buffers fit. -/
theorem refuses_right_iff (auth : UserPassAuthenticator) (user pass : StringRef) :
    (∃ refused, auth.refuses user pass = some refused ∧
      (refused = false ↔ user.value = auth.username ∧ pass.value = auth.password)) ↔
      BuffersFit auth user pass := by
  rw [BuffersFit]
  split
  · rename_i right
    calc
      _ ↔ auth.refuses user pass = some false := by
        constructor
        · rintro ⟨refused, known, exact⟩
          exact (exact.mpr right) ▸ known
        · exact fun accepted => ⟨false, accepted, iff_of_true rfl right⟩
      _ ↔ ReadsAs user.data user.value ∧ ReadsAs pass.data pass.value := by
        rw [UserPassAuthenticator.refuses_false, right.1, right.2, and_comm]
      _ ↔ _ := by rw [readsAs_value, readsAs_value]
  · rename_i wrong
    calc
      _ ↔ auth.refuses user pass = some true := by
        constructor
        · rintro ⟨refused, known, exact⟩
          cases refused with
          | true => exact known
          | false => exact absurd (exact.mp rfl) wrong
        · exact fun refused => ⟨true, refused, iff_of_false Bool.noConfusion wrong⟩
      _ ↔ _ := by
        rw [UserPassAuthenticator.refuses_true]
        constructor
        · rintro (⟨ends, other⟩ | ⟨reads, userOther⟩)
          · exact ⟨ends, fun reads => absurd reads other⟩
          · exact ⟨reads.nul_mem, fun _ => userOther⟩
        · rintro ⟨ends, userOther⟩
          by_cases reads : ReadsAs pass.data auth.password
          · exact Or.inr ⟨reads, userOther reads⟩
          · exact Or.inl ⟨ends, reads⟩

/-- The condition on a call: its two values, where both are there, fit their buffers. -/
def ValuesFit (auth : UserPassAuthenticator) (metadata : InputMetadata) : Prop :=
  ∀ userKv passKv, metadata.find "username".toList = some userKv ->
    metadata.find "password".toList = some passKv -> BuffersFit auth userKv.2 passKv.2

/-- Authentication compares exactly the received values if and only if they fit their
buffers. -/
theorem authentication_exact_iff (auth : UserPassAuthenticator) (metadata : InputMetadata) :
    ComparesExactly auth metadata ↔ ValuesFit auth metadata := by
  cases userFound : metadata.find "username".toList with
  | none =>
      have fit : ValuesFit auth metadata := by
        intro userKv passKv found
        exact nomatch userFound.symm.trans found
      exact iff_of_true (comparesExactly_missing (Or.inl userFound)) fit
  | some userKv =>
      cases passFound : metadata.find "password".toList with
      | none =>
          have fit : ValuesFit auth metadata := by
            intro otherUser passKv _ found
            exact nomatch passFound.symm.trans found
          exact iff_of_true (comparesExactly_missing (Or.inr passFound)) fit
      | some passKv =>
          rw [comparesExactly_iff_refuses userFound passFound, refuses_right_iff]
          constructor
          · intro fit otherUser otherPass sameUser samePass
            cases userFound.symm.trans sameUser
            cases passFound.symm.trans samePass
            exact fit
          · exact fun fit => fit userKv passKv userFound passFound

/-- The metadata of one call: a user name and a password, with what follows each of them. -/
def credentials (user pass : StringRef) : InputMetadata :=
  [(⟨"password".toList, [NUL]⟩, pass), (⟨"username".toList, [NUL]⟩, user)]

/-- A right password that another byte follows is refused, and a part of the password is
accepted when the bytes behind it complete it. -/
theorem right_password_refused :
    let auth : UserPassAuthenticator := ⟨"admin".toList, "secret".toList⟩
    let user : StringRef := ⟨"admin".toList, [NUL]⟩
    let followed := credentials user ⟨"secret".toList, ['x', NUL]⟩
    let completed := credentials user ⟨"sec".toList, "ret".toList ++ [NUL]⟩
    ¬ ComparesExactly auth followed ∧
      auth.process followed [] = some (.unauthenticated "Invalid username/password".toList, []) ∧
      ¬ ComparesExactly auth completed ∧
      auth.process completed [] = some (.ok,
        [("password".toList, "sec".toList), ("username".toList, "admin".toList)]) := by
  intro auth user followed completed
  have refused : auth.process followed [] =
      some (.unauthenticated "Invalid username/password".toList, []) := by decide +kernel
  have accepted : auth.process completed [] = some (.ok,
      [("password".toList, "sec".toList), ("username".toList, "admin".toList)]) := by decide +kernel
  refine ⟨fun exact => ?_, refused, fun exact => ?_, accepted⟩
  · obtain ⟨verdict, after, answered, okay⟩ := exact []
    cases refused.symm.trans answered
    exact nomatch okay.mpr ⟨_, _, rfl, rfl, rfl, rfl⟩
  · obtain ⟨verdict, after, answered, okay⟩ := exact []
    cases accepted.symm.trans answered
    obtain ⟨userKv, passKv, userFound, passFound, sameUser, samePass⟩ := okay.mp rfl
    have short : passKv.2.value = "sec".toList := by
      cases passFound
      rfl
    exact absurd (short.symm.trans samePass) (by decide +kernel)

end Security
end PscMockServer
