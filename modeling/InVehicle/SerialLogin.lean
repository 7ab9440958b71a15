import InVehicle.Effect
import InVehicle.Loops
import InVehicle.SerialPrompts
import InVehicle.SerialShell

/-!
# Logging in over a serial line

`SerialDeviceShell._login` against any device: what a read returns and whether a write
fails may depend on everything that went over the line before.
-/

set_option autoImplicit false

namespace InVehicle.SerialLogin
open InVehicle.TextCodecs InVehicle.Effect InVehicle.Loops InVehicle.SerialPrompts

/-! ## The shell and its device -/

inductive Line where
  | wake
  | user
  | password
  | probe
  | logout
  deriving DecidableEq, Repr

inductive Event where
  | wrote (l : Line)
  | got (lastRead : Text)
  deriving DecidableEq, Repr

inductive PortError where
  | writeFailed
  | readFailed
  | unicodeDecodeError
  deriving DecidableEq, Repr

/-- The other side of the line. It knows what has gone over it, the last event last. -/
structure Port where
  writeFails : List Event → Text → Bool
  read : List Event → Option Bytes

structure Credentials where
  user : Option Text
  password : Option Text

/-- `str` of a value that may be missing. -/
def format : Option Text → Text
  | some str => str
  | none => "None".toList

def Line.text (c : Credentials) : Line → Text
  | .wake => ['\n']
  | .user => format c.user ++ ['\n']
  | .password => format c.password ++ ['\n']
  | .probe => "ps -p $$ -o comm=\n".toList
  | .logout => "logout\n".toList

structure Shell where
  loggedIn : Bool
  lastRead : Text
  trace : List Event
  deriving DecidableEq

def Shell.add (s : Shell) (e : Event) : Shell := { s with trace := s.trace ++ [e] }

@[simp] theorem Shell.add_loggedIn (s : Shell) (e : Event) :
    (s.add e).loggedIn = s.loggedIn := rfl

@[simp] theorem Shell.add_lastRead (s : Shell) (e : Event) :
    (s.add e).lastRead = s.lastRead := rfl

@[simp] theorem Shell.add_trace (s : Shell) (e : Event) :
    (s.add e).trace = s.trace ++ [e] := rfl

abbrev Step (α : Type) := Prog Shell PortError α

section Code

variable (port : Port) (c : Credentials)

/-- A write that fails may have sent the line. -/
def writeString (l : Line) : Step Unit := fun s =>
  if port.writeFails s.trace (l.text c) then (.error .writeFailed, s.add (.wrote l))
  else (.ok (), s.add (.wrote l))

def readString : Step ℕ := fun s =>
  match port.read s.trace with
  | none => (.error .readFailed, s)
  | some serBytes =>
    match SerialShell.readString serBytes with
    | none => (.error .unicodeDecodeError, s)
    | some t => (.ok t.length, ({ s with lastRead := t } : Shell).add (.got t))

def lastRead : Step Text := fun s => (.ok s.lastRead, s)

def setLoggedIn (loggedIn : Bool) : Step Unit := Prog.modify fun s => { s with loggedIn := loggedIn }

def answerPassword : Step Unit := do
  let t ← lastRead
  if isPasswordPrompt t then do
    writeString port c .password
    let _ ← readString port
    pure ()
  else pure ()

/-- `_login_with_password` with so many tries left. -/
def loginWithPassword : ℕ → Step Bool
  | 0 => pure false
  | i + 1 => do
    writeString port c .user
    let _ ← readString port
    answerPassword port c
    let t ← lastRead
    if isCommandPrompt t then pure true
    else if isFailurePrompt t then pure false
    else loginWithPassword i

def loginRetries : ℕ := 3

def validatePrompt : Step Bool := do
  writeString port c .probe
  let _ ← readString port
  let t ← lastRead
  pure (decide ("bash".toList <:+: t))

def logout : Step Unit := do
  setLoggedIn false
  writeString port c .logout
  let _ ← readString port
  pure ()

/-- What `_login` does in front of its loop: whether it is over. -/
def prelude : Step Bool := do
  writeString port c .wake
  let _ ← readString port
  let t ← lastRead
  if isCommandPrompt t then do
    let valid ← validatePrompt port c
    if valid then do
      setLoggedIn true
      pure true
    else pure false
  else pure false

structure Counters where
  emptyCntr : ℕ
  unknownCntr : ℕ
  deriving DecidableEq, Repr

/-- What a pass of the loop does on the text it has read: a result, or the counters
for the next pass. -/
def handle (k : Counters) (lineSize : ℕ) : Step (Bool ⊕ Counters) := do
  let t ← lastRead
  if 0 < lineSize then
    if isCommandPrompt t then do
      setLoggedIn true
      pure (.inl true)
    else if isLoginPrompt t then do
      let success ← loginWithPassword port c loginRetries
      let t ← lastRead
      if success && isCommandPrompt t then do
        setLoggedIn true
        pure (.inl true)
      else pure (.inl false)
    else if 5 < k.unknownCntr + 1 then pure (.inl false)
    else pure (.inr { k with unknownCntr := k.unknownCntr + 1 })
  else if 5 < k.emptyCntr + 1 then do
    writeString port c .wake
    pure (.inr { k with emptyCntr := 0 })
  else pure (.inr { k with emptyCntr := k.emptyCntr + 1 })

/-- A pass of `while not self._logged_in`, with the handler around it. -/
def loginPass (_ : Unit) (s : Shell × Counters) : Pass (Shell × Counters) (Bool × Shell) :=
  match (readString port >>= handle port c s.2) s.1 with
  | (.ok (.inl b), t) => .done (b, t)
  | (.ok (.inr k), t) => .next (t, k)
  | (.error _, t) => .done (false, t)

def loop (s : Shell) (r : Bool × Shell) : Prop :=
  if s.loggedIn then r = (false, s) else Returns (loginPass port c) (fun _ => ()) (s, ⟨0, 0⟩) r

/-- `_login` returns or raises, with the state it leaves. -/
inductive Login (s : Shell) : Except PortError Bool → Shell → Prop
  | raises {e : PortError} {t : Shell} (h : prelude port c s = (.error e, t)) : Login s (.error e) t
  | already {t : Shell} (h : prelude port c s = (.ok true, t)) : Login s (.ok true) t
  | looped {t : Shell} {r : Bool × Shell} (h : prelude port c s = (.ok false, t))
      (hloop : loop port c t r) : Login s (.ok r.1) r.2

end Code

/-! ## What a login sends -/

def LoginSeen (tr : List Event) : Prop := ∃ t, .got t ∈ tr ∧ isLoginPrompt t = true

/-- The password directly behind a prompt for it, credentials only behind a prompt for the
login, the user at most so often, and a password at most once for each user. -/
structure Guarded (tries : ℕ) (tr : List Event) : Prop where
  prompted : ∀ pre post, tr = pre ++ .wrote .password :: post →
    ∃ pre' t, pre = pre' ++ [.got t] ∧ isPasswordPrompt t = true
  asked : ∀ pre l post, tr = pre ++ .wrote l :: post → l = .user ∨ l = .password → LoginSeen pre
  users : tr.count (.wrote .user) ≤ tries
  passwords : tr.count (.wrote .password) ≤ tr.count (.wrote .user)

theorem LoginSeen.append {tr : List Event} (h : LoginSeen tr) (es : List Event) :
    LoginSeen (tr ++ es) :=
  h.imp fun _ ht => ⟨List.mem_append_left _ ht.1, ht.2⟩

theorem split_concat {tr pre post : List Event} {e e' : Event}
    (h : tr ++ [e] = pre ++ e' :: post) :
    (tr = pre ∧ e = e') ∨ ∃ post', tr = pre ++ e' :: post' := by
  rcases List.eq_nil_or_concat post with rfl | ⟨post', e'', rfl⟩
  · obtain ⟨htr, hevent⟩ := List.append_inj' h rfl
    exact .inl ⟨htr, (List.cons.inj hevent).1⟩
  · rw [List.concat_eq_append, ← List.cons_append, ← List.append_assoc] at h
    exact .inr ⟨post', (List.append_inj' h rfl).1⟩

theorem Guarded.nil : Guarded 0 [] where
  prompted pre post h := by simp at h
  asked pre l post h := by simp at h
  users := Nat.le_refl 0
  passwords := Nat.le_refl 0

namespace Guarded

variable {n : ℕ} {tr : List Event} (h : Guarded n tr)
include h

theorem got (t : Text) : Guarded n (tr ++ [.got t]) where
  prompted pre post hsplit := by
    rcases split_concat hsplit with ⟨-, he⟩ | ⟨post', htr⟩
    · cases he
    · exact h.prompted pre post' htr
  asked pre l post hsplit hl := by
    rcases split_concat hsplit with ⟨-, he⟩ | ⟨post', htr⟩
    · cases he
    · exact h.asked pre l post' htr hl
  users := by simpa using h.users
  passwords := by simpa using h.passwords

theorem wrote {l : Line} (hu : l ≠ .user) (hp : l ≠ .password) :
    Guarded n (tr ++ [.wrote l]) where
  prompted pre post hsplit := by
    rcases split_concat hsplit with ⟨-, he⟩ | ⟨post', htr⟩
    · cases he
      exact absurd rfl hp
    · exact h.prompted pre post' htr
  asked pre l' post hsplit hl := by
    rcases split_concat hsplit with ⟨-, he⟩ | ⟨post', htr⟩
    · cases he
      exact absurd hl (not_or.mpr ⟨hu, hp⟩)
    · exact h.asked pre l' post' htr hl
  users := by simpa [List.count_cons, hu] using h.users
  passwords := by simpa [List.count_cons, hu, hp] using h.passwords

theorem wrote_user (hseen : LoginSeen tr) : Guarded (n + 1) (tr ++ [.wrote .user]) where
  prompted pre post hsplit := by
    rcases split_concat hsplit with ⟨-, he⟩ | ⟨post', htr⟩
    · cases he
    · exact h.prompted pre post' htr
  asked pre l post hsplit hl := by
    rcases split_concat hsplit with ⟨rfl, -⟩ | ⟨post', htr⟩
    · exact hseen
    · exact h.asked pre l post' htr hl
  users := by simpa using h.users
  passwords := by
    have := h.passwords
    simp
    omega

theorem wrote_password {pre : List Event} {t : Text} (htr : tr = pre ++ [.got t])
    (ht : isPasswordPrompt t = true) (hseen : LoginSeen tr)
    (hcount : tr.count (.wrote .password) < tr.count (.wrote .user)) :
    Guarded n (tr ++ [.wrote .password]) where
  prompted pre' post hsplit := by
    rcases split_concat hsplit with ⟨rfl, -⟩ | ⟨post', htr'⟩
    · exact ⟨pre, t, htr, ht⟩
    · exact h.prompted pre' post' htr'
  asked pre' l post hsplit hl := by
    rcases split_concat hsplit with ⟨rfl, -⟩ | ⟨post', htr'⟩
    · exact hseen
    · exact h.asked pre' l post' htr' hl
  users := by simpa using h.users
  passwords := by simpa using hcount

theorem mono {m : ℕ} (hnm : n ≤ m) : Guarded m tr where
  prompted := h.prompted
  asked := h.asked
  users := Nat.le_trans h.users hnm
  passwords := h.passwords

end Guarded

/-! ### The steps -/

section Steps

variable {port : Port} {c : Credentials} {E : PortError → Shell → Prop}

theorem writeString_ensures {l : Line} {P : Shell → Prop} {Q : Unit → Shell → Prop}
    (h : ∀ s, P s → Q () (s.add (.wrote l)) ∧ ∀ e, E e (s.add (.wrote l))) :
    Ensures P (writeString port c l) Q E := by
  intro s hs
  obtain ⟨hok, herror⟩ := h s hs
  by_cases hfails : port.writeFails s.trace (l.text c) = true
  · rw [writeString, if_pos hfails]
    exact herror _
  · rw [writeString, if_neg hfails]
    exact hok

theorem readString_ensures {P : Shell → Prop} {Q : ℕ → Shell → Prop}
    (h : ∀ s, P s → (∀ t, Q t.length (({ s with lastRead := t } : Shell).add (.got t))) ∧
      ∀ e, E e s) :
    Ensures P (readString port) Q E := by
  intro s hs
  obtain ⟨hok, herror⟩ := h s hs
  rw [readString]
  cases port.read s.trace with
  | none => exact herror _
  | some serBytes =>
    cases hread : SerialShell.readString serBytes with
    | none =>
      simp only [hread]
      exact herror _
    | some t =>
      simp only [hread]
      exact hok t

theorem lastRead_ensures {α : Type} {P : Shell → Prop} {Q : α → Shell → Prop}
    {f : Text → Step α} (h : ∀ t, Ensures (fun s => P s ∧ s.lastRead = t) (f t) Q E) :
    Ensures P (lastRead >>= f) Q E :=
  fun s hs => h s.lastRead s ⟨hs, rfl⟩

def JustRead (s : Shell) : Prop := ∃ pre, s.trace = pre ++ [.got s.lastRead]

def Trying (n : ℕ) (s : Shell) : Prop := Guarded n s.trace ∧ LoginSeen s.trace

variable (port c)

theorem answerPassword_ensures (n : ℕ) :
    Ensures (fun s => Trying n s ∧ JustRead s ∧
        s.trace.count (.wrote .password) < s.trace.count (.wrote .user))
      (answerPassword port c) (fun _ => Trying n) (fun _ => Trying n) := by
  refine lastRead_ensures fun t => ensures_ite (fun hprompt => ?_) fun _ =>
    ensures_pure fun s hs => hs.1.1
  refine ensures_bind (Q := fun _ => Trying n) (writeString_ensures ?_) fun _ =>
    ensures_bind (Q := fun _ => Trying n) (readString_ensures ?_) fun _ => ensures_pure fun _ h => h
  · rintro s ⟨⟨⟨hguarded, hseen⟩, ⟨pre, hpre⟩, hcount⟩, rfl⟩
    have h := hguarded.wrote_password hpre hprompt hseen hcount
    exact ⟨⟨h, hseen.append _⟩, fun _ => ⟨h, hseen.append _⟩⟩
  · rintro s ⟨hguarded, hseen⟩
    exact ⟨fun t => ⟨hguarded.got t, hseen.append _⟩, fun _ => ⟨hguarded, hseen⟩⟩

theorem loginWithPassword_ensures (n i : ℕ) :
    Ensures (Trying n) (loginWithPassword port c i) (fun _ => Trying (n + i))
      (fun _ => Trying (n + i)) := by
  induction i generalizing n with
  | zero => exact ensures_pure fun _ h => h
  | succ i ih =>
    have hmono : ∀ s, Trying (n + 1) s → Trying (n + (i + 1)) s := fun s h =>
      ⟨h.1.mono (by omega), h.2⟩
    have hanswer := ensures_weaken (answerPassword_ensures port c (n + 1))
      (fun _ h => h) (fun _ _ h => h) fun _ => hmono
    have hagain := ih (n + 1)
    rw [Nat.add_assoc, Nat.add_comm 1 i] at hagain
    refine ensures_bind (Q := fun _ s => Trying (n + 1) s ∧
        s.trace.count (.wrote .password) < s.trace.count (.wrote .user))
      (writeString_ensures ?_) fun _ => ensures_bind (readString_ensures ?_) fun _ =>
        ensures_bind hanswer fun _ => lastRead_ensures fun t => ?_
    · rintro s ⟨hguarded, hseen⟩
      have h : Trying (n + 1) (s.add (.wrote .user)) :=
        ⟨hguarded.wrote_user hseen, hseen.append _⟩
      refine ⟨⟨h, ?_⟩, fun _ => hmono _ h⟩
      have := hguarded.passwords
      simp
      omega
    · rintro s ⟨⟨hguarded, hseen⟩, hcount⟩
      exact ⟨fun t => ⟨⟨hguarded.got t, hseen.append _⟩, ⟨s.trace, rfl⟩, by simpa using hcount⟩,
        fun _ => hmono s ⟨hguarded, hseen⟩⟩
    · refine ensures_ite (fun _ => ensures_pure fun s h => hmono s h.1) fun _ =>
        ensures_ite (fun _ => ensures_pure fun s h => hmono s h.1) fun _ => ?_
      exact ensures_pre hagain fun _ h => h.1

def Calm (s : Shell) : Prop := Guarded 0 s.trace

theorem calm_step {l : Line} (hu : l ≠ .user) (hp : l ≠ .password) :
    Ensures Calm (writeString port c l) (fun _ => Calm) (fun _ => Calm) :=
  writeString_ensures fun _ hs => ⟨hs.wrote hu hp, fun _ => hs.wrote hu hp⟩

theorem prelude_ensures : Ensures Calm (prelude port c) (fun _ => Calm) (fun _ => Calm) := by
  have hread : Ensures Calm (readString port) (fun _ => Calm) (fun _ => Calm) :=
    readString_ensures fun _ hs => ⟨fun t => hs.got t, fun _ => hs⟩
  have hvalidate : Ensures Calm (validatePrompt port c) (fun _ => Calm) (fun _ => Calm) :=
    ensures_bind (calm_step port c nofun nofun) fun _ => ensures_bind hread fun _ =>
      lastRead_ensures fun _ => ensures_pure fun _ h => h.1
  refine ensures_bind (calm_step port c nofun nofun) fun _ => ensures_bind hread fun _ =>
    lastRead_ensures fun _ => ensures_ite (fun _ => ?_) fun _ => ensures_pure fun _ h => h.1
  refine ensures_bind (ensures_pre hvalidate fun _ h => h.1) fun _ => ensures_ite (fun _ => ?_)
    fun _ => ensures_pure fun _ h => h
  exact ensures_bind (Q := fun _ => Calm) (ensures_modify fun _ h => h) fun _ =>
    ensures_pure fun _ h => h

/-- After a pass that does not end the loop no credentials have been sent, and after the
last one no more than the tries allow. -/
theorem handle_ensures (k : Counters) (lineSize : ℕ) :
    Ensures (fun s => Calm s ∧ JustRead s) (handle port c k lineSize)
      (fun r s => match r with
        | .inl _ => Guarded loginRetries s.trace
        | .inr _ => Calm s)
      (fun _ s => Guarded loginRetries s.trace) := by
  have hmono : ∀ s, Calm s → Guarded loginRetries s.trace := fun _ h => h.mono (Nat.zero_le _)
  refine lastRead_ensures fun t => ensures_ite (fun _ => ?_) fun _ => ensures_ite (fun _ => ?_)
    fun _ => ensures_pure fun _ h => h.1.1
  · refine ensures_ite (fun _ => ?_) fun _ => ensures_ite (fun hlogin => ?_) fun _ =>
      ensures_ite (fun _ => ensures_pure fun s h => hmono s h.1.1) fun _ =>
        ensures_pure fun _ h => h.1.1
    · exact ensures_bind (Q := fun _ => Calm) (ensures_modify fun _ h => h.1.1) fun _ =>
        ensures_pure hmono
    · have hlogs := loginWithPassword_ensures port c 0 loginRetries
      rw [Nat.zero_add] at hlogs
      have htries := ensures_weaken hlogs (A := fun s => (Calm s ∧ JustRead s) ∧ s.lastRead = t)
        (fun s hs => ⟨hs.1.1, by
          obtain ⟨⟨-, pre, hpre⟩, rfl⟩ := hs
          exact ⟨s.lastRead, by rw [hpre]; simp, hlogin⟩⟩) (fun _ _ h => h) fun _ _ h => h.1
      refine ensures_bind htries fun _ => lastRead_ensures fun _ => ensures_ite (fun _ => ?_)
        fun _ => ensures_pure fun _ h => h.1.1
      exact ensures_bind (Q := fun _ s => Guarded loginRetries s.trace)
        (ensures_modify fun _ h => h.1.1) fun _ => ensures_pure fun _ h => h
  · exact ensures_bind (ensures_weaken (calm_step port c nofun nofun) (fun _ h => h.1.1) (fun _ _ h => h)
      fun _ => hmono) fun _ => ensures_pure fun _ h => h

theorem read_handle_ensures (k : Counters) :
    Ensures Calm (readString port >>= handle port c k)
      (fun r s => match r with
        | .inl _ => Guarded loginRetries s.trace
        | .inr _ => Calm s)
      (fun _ s => Guarded loginRetries s.trace) := by
  refine ensures_bind (Q := fun _ s => Calm s ∧ JustRead s) (readString_ensures ?_)
    (handle_ensures port c k)
  intro s hs
  exact ⟨fun t => ⟨hs.got t, s.trace, rfl⟩, fun _ => hs.mono (Nat.zero_le _)⟩

end Steps

def Sent : Pass (Shell × Counters) (Bool × Shell) → Prop
  | .next s => Calm s.1
  | .done r => Guarded loginRetries r.2.trace

theorem pass_sent (port : Port) (c : Credentials) {s : Shell × Counters} (hs : Calm s.1) :
    Sent (loginPass port c () s) := by
  rw [loginPass]
  obtain ⟨b | k, t, hrun, h⟩ | ⟨e, t, hrun, h⟩ := (read_handle_ensures port c s.2).ends hs
  · rw [hrun]
    exact h
  · rw [hrun]
    exact h
  · rw [hrun]
    exact h

theorem after_sent (port : Port) (c : Credentials) {s : Shell × Counters} (hs : Calm s.1)
    (n : ℕ) : Sent (after (loginPass port c) (fun _ => ()) s n) := by
  induction n with
  | zero => exact hs
  | succ n ih =>
    rw [after]
    cases h : after (loginPass port c) (fun _ => ()) s n with
    | next t =>
      rw [h] at ih
      exact pass_sent port c ih
    | done r =>
      rw [h] at ih
      exact ih

def fresh : Shell := ⟨false, [], []⟩

/-- Whatever the device answers: credentials go out only behind a prompt for them, at most
three times, and none as long as the loop goes on. -/
theorem credentials_guarded (port : Port) (c : Credentials) :
    (∀ r t, Login port c fresh r t → Guarded loginRetries t.trace) ∧
    ∀ t n s k, prelude port c fresh = (.ok false, t) →
      after (loginPass port c) (fun _ => ()) (t, ⟨0, 0⟩) n = .next (s, k) → Guarded 0 s.trace := by
  have hprelude := prelude_ensures port c fresh Guarded.nil
  have hmono : ∀ {tr : List Event}, Guarded 0 tr → Guarded loginRetries tr :=
    fun h => h.mono (Nat.zero_le _)
  constructor
  · intro r t hlogin
    cases hlogin with
    | raises h =>
      rw [h] at hprelude
      exact hmono hprelude
    | already h =>
      rw [h] at hprelude
      exact hmono hprelude
    | looped h hloop =>
      rw [h] at hprelude
      rw [loop] at hloop
      split at hloop
      · rw [hloop]
        exact hmono hprelude
      · obtain ⟨n, hn⟩ := hloop
        have hsent := after_sent port c hprelude n (s := (_, ⟨0, 0⟩))
        rw [hn] at hsent
        exact hsent
  · intro t n s k h hn
    rw [h] at hprelude
    have hsent := after_sent port c hprelude n (s := (t, ⟨0, 0⟩))
    rw [hn] at hsent
    exact hsent

/-- A device that asks for the user, then for the password, and then shows a prompt. The
last character of what is read is dropped. -/
def getty : Port where
  writeFails _ _ := false
  read tr := some <| String.toUTF8 (match tr.getLast? with
    | some (.wrote .user) => "Password: "
    | some (.wrote .password) => "# "
    | _ => "login: ") |>.data.toList

example : Login getty ⟨some "root".toList, some "secret".toList⟩ fresh (.ok true)
    ⟨true, ['#'], [.wrote .wake, .got "login:".toList, .got "login:".toList, .wrote .user,
      .got "Password:".toList, .wrote .password, .got ['#']]⟩ := by
  refine .looped (r := (true, _)) (t := ⟨false, "login:".toList, [.wrote .wake,
    .got "login:".toList]⟩) (by decide +kernel) ?_
  exact ⟨1, by decide +kernel⟩

end InVehicle.SerialLogin
