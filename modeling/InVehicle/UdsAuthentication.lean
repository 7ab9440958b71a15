import InVehicle.UdsServices

/-!
# UDS authentication

`UdsUtils.authentication` with its actions, and the signature of a challenge with
`CryptoUtils.sign_data`. udsoncan and the cryptography package are parameters.
-/

set_option autoImplicit false

namespace InVehicle.UdsAuthentication
open InVehicle.Effect InVehicle.UdsExchange InVehicle.UdsServices

/-! ## Signatures -/

inductive AsymmetricPaddingType where
  | pkcs1v15
  | pss
  | oaep
  deriving DecidableEq, Repr

inductive HashingAlgorithm where
  | sha1
  | sha512_224
  | sha512_256
  | sha224
  | sha256
  | sha384
  | sha512
  | sha3_224
  | sha3_256
  | sha3_384
  | sha3_512
  | md5
  | sm3
  deriving DecidableEq, Repr

inductive KeyType where
  | rsa
  | dsa
  | ed25519
  | ed448
  | other (name : String)
  deriving DecidableEq, Repr

/-- A loaded key. An RSA key signs with the padding PKCS1v15. -/
structure PrivateKey where
  type : KeyType
  sign : Bytes → HashingAlgorithm → Except LibraryError Bytes

def signRsa (key : PrivateKey) (data : Bytes) (hashAlg : HashingAlgorithm)
    (padding : AsymmetricPaddingType) : Except ServiceError Bytes :=
  if padding ≠ .pkcs1v15 then
    .error (.notImplementedError "Currently only PKCS1v15 padding is supported")
  else (key.sign data hashAlg).mapError .library

def signDsa (key : PrivateKey) (data : Bytes) (hashAlg : HashingAlgorithm) :
    Except ServiceError Bytes :=
  (key.sign data hashAlg).mapError .library

/-- The methods for the two Edwards curves take no hash, but are given one. -/
def signData (loadDerPrivateKey : Bytes → Except LibraryError PrivateKey) (privateKeyDer : Bytes)
    (data : Bytes) (hashAlg : HashingAlgorithm) (padding : AsymmetricPaddingType) :
    Except ServiceError Bytes := do
  let key ← (loadDerPrivateKey privateKeyDer).mapError .library
  match key.type with
  | .rsa => signRsa key data hashAlg padding
  | .dsa => signDsa key data hashAlg
  | .ed25519 => .error .typeError
  | .ed448 => .error .typeError
  | .other name => .error (.notImplementedError ("Key type " ++ name ++ " is not supported ATM"))

def ofExcept {α : Type} : Except ServiceError α → Uds α
  | .ok a => pure a
  | .error e => Prog.raise e

/-! ## Parameters -/

structure UnidirectionalAPCEParams where
  privateKeyDer : Bytes
  certificateClient : Bytes
  asymPaddingType : AsymmetricPaddingType
  hashAlgorithm : HashingAlgorithm
  communicationConfiguration : ℕ
  le_max : communicationConfiguration ≤ 255

structure TransmitCertificateParams where
  certificateEvaluationId : ℕ
  certificateData : Bytes
  le_max : certificateEvaluationId ≤ 0xffff

/-- The parameters by their `authentication_action`. -/
inductive AuthenticationParams where
  | authenticationConfiguration
  | pkiCertificateExchangeUnidirectional (params : UnidirectionalAPCEParams)
  | pkiCertificateExchangeBidirectional
  | challengeResponse
  | deAuthenticate
  | transmitCertificate (params : TransmitCertificateParams)

inductive AuthenticationReturnParameter where
  | requestAccepted
  | generalReject
  | authenticationConfigurationApce
  | authenticationConfigurationAcrWithAsymmetricCryptography
  | authenticationConfigurationAcrWithSymmetricCryptography
  | deAuthenticationSuccessful
  | certificateVerifiedOwnershipVerificationNecessary
  | ownershipVerifiedAuthenticationComplete
  | certificateVerified
  deriving DecidableEq, Repr

def AuthenticationReturnParameter.ofValue : ℕ → Except LibraryError AuthenticationReturnParameter
  | 0x00 => .ok .requestAccepted
  | 0x01 => .ok .generalReject
  | 0x02 => .ok .authenticationConfigurationApce
  | 0x03 => .ok .authenticationConfigurationAcrWithAsymmetricCryptography
  | 0x04 => .ok .authenticationConfigurationAcrWithSymmetricCryptography
  | 0x10 => .ok .deAuthenticationSuccessful
  | 0x11 => .ok .certificateVerifiedOwnershipVerificationNecessary
  | 0x12 => .ok .ownershipVerifiedAuthenticationComplete
  | 0x13 => .ok .certificateVerified
  | _ => .error .valueError

/-- The tasks that the code asks `Authentication.make_request` for, with what it gives. -/
inductive AuthenticationTask where
  | deAuthenticate
  | verifyCertificateUnidirectional (communicationConfiguration : ℕ) (certificateClient : Bytes)
  | proofOfOwnership (proofOfOwnershipClient : Bytes)
  | transmitCertificate (certificateEvaluationId : ℕ) (certificateData : Bytes)
  | authenticationConfiguration
  deriving DecidableEq, Repr

structure ServiceData where
  returnValue : ℕ
  challengeServer : Option Bytes
  ephemeralPublicKeyServer : Option Bytes
  deriving DecidableEq, Repr

def given (b : Option Bytes) : Bool := !(b.getD []).isEmpty

structure Packages where
  authentication : Service AuthenticationTask ServiceData
  loadDerPrivateKey : Bytes → Except LibraryError PrivateKey

section Code

variable {Routine Dtc : Type} (u : UdsUtils Routine Dtc) (p : Packages) (timeout : ℚ)

def authenticationAction (task : AuthenticationTask) : Uds AuthenticationReturnParameter := do
  let serviceData ← u.call p.authentication task timeout
  ofLibrary (AuthenticationReturnParameter.ofValue serviceData.returnValue)

def authenticationTransmitCertificate (params : TransmitCertificateParams) :
    Uds AuthenticationReturnParameter :=
  authenticationAction u p timeout
    (.transmitCertificate params.certificateEvaluationId params.certificateData)

def authenticationDeauthenticate : Uds AuthenticationReturnParameter :=
  authenticationAction u p timeout .deAuthenticate

def authenticationConfiguration : Uds AuthenticationReturnParameter :=
  authenticationAction u p timeout .authenticationConfiguration

def authenticationUniCertificateExchange (params : UnidirectionalAPCEParams) :
    Uds AuthenticationReturnParameter := do
  let serviceData ← u.call p.authentication (.verifyCertificateUnidirectional
    params.communicationConfiguration params.certificateClient) timeout
  if !given serviceData.challengeServer then
    Prog.raise (.uds (.invalidResponse "Expected challenge from server but none received"))
  else if given serviceData.ephemeralPublicKeyServer then
    Prog.raise (.notImplementedError "Session key establishment is not supported yet")
  else do
    let sigData ← ofExcept (signData p.loadDerPrivateKey params.privateKeyDer
      (serviceData.challengeServer.getD []) params.hashAlgorithm params.asymPaddingType)
    authenticationAction u p timeout (.proofOfOwnership sigData)

def authentication : AuthenticationParams → Uds AuthenticationReturnParameter
  | .authenticationConfiguration => authenticationConfiguration u p timeout
  | .pkiCertificateExchangeUnidirectional params =>
    authenticationUniCertificateExchange u p timeout params
  | .pkiCertificateExchangeBidirectional => Prog.raise
      (.notImplementedError "PKI_CertificateExchangeBidirectional is not implemented yet")
  | .challengeResponse =>
    Prog.raise (.notImplementedError "ChallengeResponse is not implemented yet")
  | .deAuthenticate => authenticationDeauthenticate u p timeout
  | .transmitCertificate params => authenticationTransmitCertificate u p timeout params

end Code

/-! ## What a call sends -/

section Calls

variable {Routine Dtc : Type} (u : UdsUtils Routine Dtc) (p : Packages) (log : List Exchanged)

def firstTask : AuthenticationParams → Option AuthenticationTask
  | .authenticationConfiguration => some .authenticationConfiguration
  | .pkiCertificateExchangeUnidirectional params => some (.verifyCertificateUnidirectional
      params.communicationConfiguration params.certificateClient)
  | .pkiCertificateExchangeBidirectional => none
  | .challengeResponse => none
  | .deAuthenticate => some .deAuthenticate
  | .transmitCertificate params =>
    some (.transmitCertificate params.certificateEvaluationId params.certificateData)

def Signs (params : UnidirectionalAPCEParams) (challenge sig : Bytes) : Prop :=
  ∃ key, p.loadDerPrivateKey params.privateKeyDer = .ok key ∧
    (key.type = .rsa ∧ params.asymPaddingType = .pkcs1v15 ∨ key.type = .dsa) ∧
    key.sign challenge params.hashAlgorithm = .ok sig

/-- The certificate was answered with a challenge and no key, and this is its signature. -/
def Challenged (params : UnidirectionalAPCEParams) (x : Exchanged) (sig : Bytes) : Prop :=
  ∃ response data challenge, Answered u x response ∧
    p.authentication.makeRequest (.verifyCertificateUnidirectional
      params.communicationConfiguration params.certificateClient) = .ok x.request ∧
    p.authentication.interpretResponse response = .ok data ∧
    data.challengeServer = some challenge ∧ challenge ≠ [] ∧
    given data.ephemeralPublicKeyServer = false ∧ Signs p params challenge sig

/-- The exchanges of a call, wherever it ends: a proof of ownership only behind the
challenge that it signs. -/
def Guarded (a : AuthenticationParams) (t : List Exchanged) : Prop :=
  t = log ∨
    (∃ x task, t = log ++ [x] ∧ firstTask a = some task ∧
      p.authentication.makeRequest task = .ok x.request) ∨
    ∃ params x y sig, a = .pkiCertificateExchangeUnidirectional params ∧ t = log ++ [x, y] ∧
      Challenged u p params x sig ∧
      p.authentication.makeRequest (.proofOfOwnership sig) = .ok y.request

/-- The last exchange was answered with the value that is returned. -/
def Completed (a : AuthenticationParams) (v : AuthenticationReturnParameter)
    (t : List Exchanged) : Prop :=
  ∃ before task data, Done u before p.authentication task data t ∧
    AuthenticationReturnParameter.ofValue data.returnValue = .ok v ∧
    match a with
    | .pkiCertificateExchangeUnidirectional params => ∃ x sig, before = log ++ [x] ∧
        Challenged u p params x sig ∧ task = .proofOfOwnership sig
    | a => before = log ∧ firstTask a = some task

theorem mapError_eq_ok {ε ε' α : Type} {f : ε → ε'} {x : Except ε α} {a : α} :
    x.mapError f = .ok a ↔ x = .ok a := by
  cases x <;> simp [Except.mapError]

theorem signData_signs {params : UnidirectionalAPCEParams} {challenge sig : Bytes}
    (h : signData p.loadDerPrivateKey params.privateKeyDer challenge params.hashAlgorithm
      params.asymPaddingType = .ok sig) : Signs p params challenge sig := by
  obtain ⟨key, hkey, hsig⟩ := except_bind_eq_ok.mp h
  refine ⟨key, mapError_eq_ok.mp hkey, ?_⟩
  cases htype : key.type with
  | rsa =>
    simp only [htype, signRsa] at hsig
    by_cases hpadding : params.asymPaddingType = .pkcs1v15
    · simp only [hpadding, ne_eq, not_true_eq_false, if_false] at hsig
      exact ⟨.inl ⟨rfl, hpadding⟩, mapError_eq_ok.mp hsig⟩
    · rw [if_pos hpadding] at hsig
      cases hsig
  | dsa =>
    simp only [htype] at hsig
    exact ⟨.inr rfl, mapError_eq_ok.mp hsig⟩
  | ed25519 =>
    simp only [htype] at hsig
    cases hsig
  | ed448 =>
    simp only [htype] at hsig
    cases hsig
  | other name =>
    simp only [htype] at hsig
    cases hsig

variable (timeout : ℚ)

theorem authenticationAction_done (task : AuthenticationTask) :
    Ensures (· = log) (authenticationAction u p timeout task)
      (fun v t => ∃ data, Done u log p.authentication task data t ∧
        AuthenticationReturnParameter.ofValue data.returnValue = .ok v)
      (fun _ => Tried log p.authentication task) := by
  refine ensures_bind (call_answered u log p.authentication task timeout) fun data => ?_
  intro t ht
  cases hvalue : AuthenticationReturnParameter.ofValue data.returnValue with
  | ok v => exact ⟨data, ht, hvalue⟩
  | error e =>
    obtain ⟨x, -, hx, -, hmake, -⟩ := ht
    exact .inr ⟨x, hx, hmake⟩

theorem guarded_of_tried {a : AuthenticationParams} {task : AuthenticationTask}
    {t : List Exchanged} (htask : firstTask a = some task)
    (h : Tried log p.authentication task t) : Guarded u p log a t := by
  rcases h with h | ⟨x, ht, hmake⟩
  · exact .inl h
  · exact .inr (.inl ⟨x, task, ht, htask, hmake⟩)

theorem authenticationUniCertificateExchange_guarded (params : UnidirectionalAPCEParams) :
    Ensures (· = log) (authenticationUniCertificateExchange u p timeout params)
      (Completed u p log (.pkiCertificateExchangeUnidirectional params))
      (fun _ => Guarded u p log (.pkiCertificateExchangeUnidirectional params)) := by
  refine ensures_bind (ensures_weaken (call_answered u log p.authentication
    (.verifyCertificateUnidirectional params.communicationConfiguration
      params.certificateClient) timeout) (fun _ h => h) (fun _ _ h => h)
      fun _ _ => guarded_of_tried u p log rfl) fun data => ?_
  have hguarded : ∀ t, Done u log p.authentication (.verifyCertificateUnidirectional
      params.communicationConfiguration params.certificateClient) data t →
      Guarded u p log (.pkiCertificateExchangeUnidirectional params) t := by
    rintro t ⟨x, -, ht, -, hmake, -⟩
    exact .inr (.inl ⟨x, _, ht, rfl, hmake⟩)
  refine ensures_ite (fun _ => ensures_raise hguarded) fun hchallenge =>
    ensures_ite (fun _ => ensures_raise hguarded) fun hkey => ?_
  rintro t ht
  cases hsign : signData p.loadDerPrivateKey params.privateKeyDer
      (data.challengeServer.getD []) params.hashAlgorithm params.asymPaddingType with
  | error e => exact hguarded t ht
  | ok sig =>
    obtain ⟨x, response, rfl, hx, hmake, hinterpret⟩ := ht
    have hchallenged : Challenged u p params x sig := by
      cases hserver : data.challengeServer with
      | none => simp [given, hserver] at hchallenge
      | some challenge =>
        rw [hserver] at hsign
        refine ⟨response, data, challenge, hx, hmake, hinterpret, hserver, ?_, ?_,
          signData_signs p hsign⟩
        · rintro rfl
          simp [given, hserver] at hchallenge
        · exact Bool.eq_false_of_not_eq_true hkey
    obtain ⟨v, t, hrun, last, hlast, hvalue⟩ | ⟨e, t, hrun, htried⟩ :=
      (authenticationAction_done u p (log ++ [x]) timeout (.proofOfOwnership sig)).ends rfl
    · have hall : (ofExcept (.ok sig) >>= fun sigData =>
          authenticationAction u p timeout (.proofOfOwnership sigData)) (log ++ [x]) =
          (.ok v, t) := hrun
      rw [hall]
      exact ⟨_, _, last, hlast, hvalue, x, sig, rfl, hchallenged, rfl⟩
    · have hall : (ofExcept (.ok sig) >>= fun sigData =>
          authenticationAction u p timeout (.proofOfOwnership sigData)) (log ++ [x]) =
          (.error e, t) := hrun
      rw [hall]
      rcases htried with rfl | ⟨y, rfl, hproof⟩
      · exact hguarded _ ⟨x, response, rfl, hx, hmake, hinterpret⟩
      · refine .inr (.inr ⟨params, x, y, sig, rfl, ?_, hchallenged, hproof⟩)
        rw [List.append_assoc]
        rfl

/-- Over every link: at most two exchanges, a proof of ownership only behind an answer with
a challenge and without an ephemeral key, made from a signature of this very challenge; and
a value is returned only as it stands in the last answer. -/
theorem authentication_guarded (a : AuthenticationParams) :
    Ensures (· = log) (authentication u p timeout a) (Completed u p log a)
      (fun _ => Guarded u p log a) := by
  have hsingle : ∀ (a : AuthenticationParams) (task : AuthenticationTask),
      firstTask a = some task →
      (∀ v data t, Done u log p.authentication task data t →
        AuthenticationReturnParameter.ofValue data.returnValue = .ok v →
        Completed u p log a v t) →
      Ensures (· = log) (authenticationAction u p timeout task) (Completed u p log a)
        (fun _ => Guarded u p log a) := by
    intro a task htask hcompleted
    refine ensures_weaken (authenticationAction_done u p log timeout task) (fun _ h => h) ?_
      fun _ _ => guarded_of_tried u p log htask
    rintro v t ⟨data, hdone, hvalue⟩
    exact hcompleted v data t hdone hvalue
  cases a with
  | authenticationConfiguration =>
    exact hsingle _ _ rfl fun v data t hdone hvalue => ⟨log, _, data, hdone, hvalue, rfl, rfl⟩
  | pkiCertificateExchangeUnidirectional params =>
    exact authenticationUniCertificateExchange_guarded u p log timeout params
  | pkiCertificateExchangeBidirectional => exact ensures_raise fun _ h => .inl h
  | challengeResponse => exact ensures_raise fun _ h => .inl h
  | deAuthenticate =>
    exact hsingle _ _ rfl fun v data t hdone hvalue => ⟨log, _, data, hdone, hvalue, rfl, rfl⟩
  | transmitCertificate params =>
    exact hsingle _ _ rfl fun v data t hdone hvalue => ⟨log, _, data, hdone, hvalue, rfl, rfl⟩

end Calls

end InVehicle.UdsAuthentication
