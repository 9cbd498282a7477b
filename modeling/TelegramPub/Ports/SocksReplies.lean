import TelegramPub.Ports.SocksDialogue
import Mathlib.Data.List.Forall2

/-!
# The dialogue with the proxy

`talk` is what the grammars say of a stream of answers: the stages that are due, how the
answers end, and whether they have an empty domain name.  `talkFrom` says the same of the
bytes behind a pending read, and a completed read goes from one to the next
(`phase_completeRead`), so a run stands where the grammar does (`phase_run`).
-/

namespace TelegramPub.Ports.SocksDialogue

open Verified.Bytes Verified.ByteReader Verified.Machine
open Ports.TcpFraming (Connection)

/-! ## What the grammars say -/

structure Talk where
  stages : List Stage
  result : Except Fault (Unit × Cursor)
  emptyDomain : Prop

/-- The stages `sent` came before. -/
def Talk.after (sent : List Stage) (t : Talk) : Talk := { t with stages := sent ++ t.stages }

def talk (stream : Data) : Talk where
  stages := stages stream
  result := replies (Cursor.start stream)
  emptyDomain := EmptyDomain stream

/-- The port behind an address of `n` bytes. -/
def restOfReply (n : Nat) : Reader Unit := do
  let _ ← take n
  let _ ← take 2
  return ()

/-- What is said by the bytes behind a pending read. -/
def talkFrom : Nat × SocksTag → Cursor → Talk
  | (_, .login), c =>
    { stages := stagesAfterMethod c
      result := replies c
      emptyDomain := ∃ c', domainLength c = .ok (0, c') }
  | (_, .receiveAuthResponse), c =>
    { stages := stagesAfterAuth c
      result := (do authReply; connectReply) c
      emptyDomain := ∃ c', (do authReply; connectDomainLength) c = .ok (0, c') }
  | (_, .request), c =>
    { stages := []
      result := connectReply c
      emptyDomain := ∃ c', connectDomainLength c = .ok (0, c') }
  | (_, .receiveBindAddrDomainNameLength), c =>
    { stages := []
      result := (do let _ ← boundDomain; let _ ← take 2; return ()) c
      emptyDomain := ∃ c', (do let length ← take 1; return length.getD 0 0) c = .ok (0, c') }
  | (n, .receiveBindAddrDomainName), c | (n, .receiveBindAddr4), c
  | (n, .receiveBindAddr6), c =>
    { stages := [], result := restOfReply n c, emptyDomain := False }
  | (_, .receiveBindAddrPort), c =>
    { stages := [], result := (do let _ ← take 2; return ()) c, emptyDomain := False }

/-- The reads that the code asks for. -/
inductive Asks : Nat × SocksTag → Prop where
  | login : Asks (2, .login)
  | receiveAuthResponse : Asks (2, .receiveAuthResponse)
  | request : Asks (4, .request)
  | receiveBindAddr4 : Asks (4, .receiveBindAddr4)
  | receiveBindAddr6 : Asks (16, .receiveBindAddr6)
  | receiveBindAddrDomainNameLength : Asks (1, .receiveBindAddrDomainNameLength)
  | receiveBindAddrDomainName (n : Nat) (hn : n ≠ 0) : Asks (n, .receiveBindAddrDomainName)
  | receiveBindAddrPort : Asks (2, .receiveBindAddrPort)

section Phases

variable (aes : Data → Data → Data) (random : Nat → UInt8) (s : Settings)

/-- What a stage writes. -/
def Settings.bytes : Stage → Data
  | .methods => identRequest s
  | .credentials => authRequest s
  | .request => socksRequest s

/-- A state of the dialogue, and what the grammar says of all that has come and may still
come. -/
inductive Phase (stream : Data) (c : Proxied) : Prop where
  | asks (sent : List Stage) (pending : Nat × SocksTag) (offset : Nat) (received : Data)
      (hpending : Asks pending)
      (hc : c =
        { connection := { received }
          socksRead := some pending
          requests := sent.map s.bytes
          opened := 0 })
      (htalk : ∀ more, talk (stream ++ more) =
        (talkFrom pending ⟨offset, received ++ more⟩).after sent)
  | stuck (sent : List Stage) (received : Data)
      (hc : c = { connection := { received }, requests := sent.map s.bytes, opened := 0 })
      (htalk : ∀ more, (talk (stream ++ more)).stages = sent ∧
        (talk (stream ++ more)).emptyDomain)
  | refused (sent : List Stage) (hclosed : c.connection.closed = true)
      (hpending : c.connection.pendingRead = none) (hread : c.socksRead = none)
      (hopened : c.opened = 0) (hrequests : c.requests = sent.map s.bytes)
      (htalk : ∀ more, talk (stream ++ more) = ⟨sent, .error .rejected, False⟩)
  | opened (sent : List Stage) (offset : Nat) (events : List TcpFraming.Event)
      (hconnection : c.connection =
        run (TcpFraming.step aes random) TcpFraming.started events)
      (hread : c.socksRead = none) (hopened : c.opened = 1)
      (hrequests : c.requests = sent.map s.bytes)
      (htalk : ∀ more, talk (stream ++ more) =
        ⟨sent, .ok ((), ⟨offset, TcpFraming.arrivals events ++ more⟩), False⟩)

theorem phase_start : Phase aes random s [] (start s) := by
  refine .asks [.methods] (2, .login) 0 [] .login rfl ?_
  intro more
  rfl

/-- The dialogue behind a completed read. -/
def resumed (sent : List Stage) (received : Data) : Proxied where
  connection := { received }
  requests := sent.map s.bytes

variable {aes random s} {stream b r : Data} {sent : List Stage} {pending : Nat × SocksTag}
  {offset : Nat}

variable {n : Nat}

theorem take_bind {α : Type} {f : Data → Reader α} (hb : b.length = n) :
    (take n >>= f) ⟨offset, b ++ r⟩ = f b ⟨offset + n, r⟩ := by
  have hle : n ≤ (b ++ r).length := by
    rw [List.length_append]
    omega
  rw [bind_apply, take_of_le hle]
  rw [List.take_left' hb, List.drop_left' hb]

theorem phase_refused (htalk : ∀ more, talk (stream ++ more) =
      (talkFrom pending ⟨offset, b ++ (r ++ more)⟩).after sent)
    (hstep : ∀ r', talkFrom pending ⟨offset, b ++ r'⟩ = ⟨[], .error .rejected, False⟩) :
    Phase aes random s stream (closeAndNotify (resumed s sent r)) := by
  refine .refused sent rfl rfl rfl rfl rfl ?_
  intro more
  rw [htalk, hstep, Talk.after, List.append_nil]

theorem phase_asks {next : List Stage} {pending' : Nat × SocksTag} {offset' : Nat}
    (htalk : ∀ more, talk (stream ++ more) =
      (talkFrom pending ⟨offset, b ++ (r ++ more)⟩).after sent)
    (hasks : Asks pending')
    (hstep : ∀ r', talkFrom pending ⟨offset, b ++ r'⟩ =
      (talkFrom pending' ⟨offset', r'⟩).after next) :
    Phase aes random s stream
      { resumed s (sent ++ next) r with socksRead := some pending' } := by
  refine .asks (sent ++ next) pending' offset' r hasks rfl ?_
  intro more
  rw [htalk, hstep, Talk.after, Talk.after, Talk.after, List.append_assoc]

theorem methodReply_append (hb : b.length = 2) :
    methodReply ⟨offset, b ++ r⟩ =
      if b.getD 0 0 = 5 ∧ b.getD 1 0 ≠ 0xFF then .ok (b.getD 1 0, ⟨offset + 2, r⟩)
      else .error .rejected := by
  rw [methodReply, take_bind hb]
  split <;> rfl

theorem authReply_append (hb : b.length = 2) :
    authReply ⟨offset, b ++ r⟩ =
      if b.getD 0 0 = 1 ∧ b.getD 1 0 = 0 then .ok ((), ⟨offset + 2, r⟩)
      else .error .rejected := by
  rw [authReply, take_bind hb]
  split <;> rfl

/-- A method that is not accepted. -/
theorem talkFrom_login_refused (hb : b.length = 2) (h : ¬ (b.getD 0 0 = 5 ∧ b.getD 1 0 ≠ 0xFF)) :
    talkFrom (n, .login) ⟨offset, b ++ r⟩ = ⟨[], .error .rejected, False⟩ := by
  have hmethod : methodReply ⟨offset, b ++ r⟩ = .error .rejected := by
    rw [methodReply_append hb, if_neg h]
  simp only [talkFrom, stagesAfterMethod, replies, domainLength, bind_apply, hmethod,
    reduceCtorEq, exists_false]

theorem talkFrom_login_credentials {n' : Nat} (hb : b.length = 2) (hversion : b.getD 0 0 = 5)
    (hmethod : b.getD 1 0 = 2) :
    talkFrom (n, .login) ⟨offset, b ++ r⟩ =
      (talkFrom (n', .receiveAuthResponse) ⟨offset + 2, r⟩).after [.credentials] := by
  have hreply : methodReply ⟨offset, b ++ r⟩ = .ok (2, ⟨offset + 2, r⟩) := by
    rw [methodReply_append hb, hversion, hmethod]
    rfl
  simp only [talkFrom, stagesAfterMethod, replies, domainLength, bind_apply, hreply, if_true]
  rfl

theorem talkFrom_login_request {n' : Nat} (hb : b.length = 2) (hversion : b.getD 0 0 = 5)
    (hrefused : b.getD 1 0 ≠ 0xFF) (hmethod : b.getD 1 0 ≠ 2) :
    talkFrom (n, .login) ⟨offset, b ++ r⟩ =
      (talkFrom (n', .request) ⟨offset + 2, r⟩).after [.request] := by
  have hreply : methodReply ⟨offset, b ++ r⟩ = .ok (b.getD 1 0, ⟨offset + 2, r⟩) := by
    rw [methodReply_append hb, if_pos ⟨hversion, hrefused⟩]
  simp only [talkFrom, stagesAfterMethod, replies, domainLength, bind_apply, hreply,
    hmethod, if_false]
  rfl

theorem phase_login (hb : b.length = 2) (htalk : ∀ more, talk (stream ++ more) =
      (talkFrom (n, .login) ⟨offset, b ++ (r ++ more)⟩).after sent) :
    Phase aes random s stream (didReadData s (resumed s sent r) b .login) := by
  by_cases hversion : b.getD 0 0 = 5
  · by_cases hrefused : b.getD 1 0 = 0xFF
    · have hread : didReadData s (resumed s sent r) b .login =
          closeAndNotify (resumed s sent r) := by
        simp only [didReadData, resumed, hb, hversion, hrefused, ne_eq, not_true_eq_false,
          Bool.false_eq_true, if_false, if_true]
      rw [hread]
      exact phase_refused htalk fun r' => talkFrom_login_refused hb fun h => h.2 hrefused
    · by_cases hmethod : b.getD 1 0 = 2
      · have hread : didReadData s (resumed s sent r) b .login =
            { resumed s (sent ++ [Stage.credentials]) r with
              socksRead := some (2, .receiveAuthResponse) } := by
          rw [hmethod] at hrefused
          simp only [didReadData, resumed, hb, hversion, hmethod, hrefused, ne_eq,
            not_true_eq_false, Bool.false_eq_true, if_false, if_true, writeData,
            readDataToLength, List.map_append, List.map_cons, List.map_nil, Settings.bytes]
          rfl
        rw [hread]
        exact phase_asks htalk .receiveAuthResponse fun r' =>
          talkFrom_login_credentials hb hversion hmethod
      · have hread : didReadData s (resumed s sent r) b .login =
            { resumed s (sent ++ [Stage.request]) r with socksRead := some (4, .request) } := by
          simp only [didReadData, resumed, hb, hversion, hrefused, hmethod, ne_eq,
            not_true_eq_false, Bool.false_eq_true, if_false, requestSocksConnection, writeData,
            readDataToLength, List.map_append, List.map_cons, List.map_nil, Settings.bytes]
          rfl
        rw [hread]
        exact phase_asks htalk .request fun r' =>
          talkFrom_login_request hb hversion hrefused hmethod
  · have hread : didReadData s (resumed s sent r) b .login =
        closeAndNotify (resumed s sent r) := by
      simp only [didReadData, resumed, hb, hversion, ne_eq, not_true_eq_false, not_false_eq_true,
        Bool.false_eq_true, if_false, if_true]
    rw [hread]
    exact phase_refused htalk fun r' => talkFrom_login_refused hb fun h => hversion h.1

theorem talkFrom_auth_refused (hb : b.length = 2) (h : ¬ (b.getD 0 0 = 1 ∧ b.getD 1 0 = 0)) :
    talkFrom (n, .receiveAuthResponse) ⟨offset, b ++ r⟩ = ⟨[], .error .rejected, False⟩ := by
  have hreply : authReply ⟨offset, b ++ r⟩ = .error .rejected := by
    rw [authReply_append hb, if_neg h]
  simp only [talkFrom, stagesAfterAuth, bind_apply, hreply, reduceCtorEq, exists_false]

theorem talkFrom_auth_request {n' : Nat} (hb : b.length = 2) (h : b.getD 0 0 = 1 ∧ b.getD 1 0 = 0) :
    talkFrom (n, .receiveAuthResponse) ⟨offset, b ++ r⟩ =
      (talkFrom (n', .request) ⟨offset + 2, r⟩).after [.request] := by
  have hreply : authReply ⟨offset, b ++ r⟩ = .ok ((), ⟨offset + 2, r⟩) := by
    rw [authReply_append hb, if_pos h]
  simp only [talkFrom, stagesAfterAuth, bind_apply, hreply]
  rfl

theorem phase_auth (hb : b.length = 2) (htalk : ∀ more, talk (stream ++ more) =
      (talkFrom (n, .receiveAuthResponse) ⟨offset, b ++ (r ++ more)⟩).after sent) :
    Phase aes random s stream (didReadData s (resumed s sent r) b .receiveAuthResponse) := by
  by_cases haccepted : b.getD 0 0 = 1 ∧ b.getD 1 0 = 0
  · have hread : didReadData s (resumed s sent r) b .receiveAuthResponse =
        { resumed s (sent ++ [Stage.request]) r with socksRead := some (4, .request) } := by
      simp only [didReadData, resumed, haccepted, ne_eq, not_true_eq_false, or_self,
        Bool.false_eq_true, if_false, requestSocksConnection, writeData,
        readDataToLength, List.map_append, List.map_cons, List.map_nil, Settings.bytes]
      rfl
    rw [hread]
    exact phase_asks htalk .request fun r' => talkFrom_auth_request hb haccepted
  · have hread : didReadData s (resumed s sent r) b .receiveAuthResponse =
        closeAndNotify (resumed s sent r) := by
      rw [not_and_or] at haccepted
      simp only [didReadData, resumed, ne_eq, haccepted, Bool.false_eq_true, if_false, if_true]
    rw [hread]
    exact phase_refused htalk fun r' => talkFrom_auth_refused hb haccepted

/-- The connect request is answered with an error, or with an unknown type of address. -/
theorem talkFrom_request_refused (hb : b.length = 4)
    (h : ¬ (b.getD 1 0 = 0 ∧ (b.getD 3 0 = 1 ∨ b.getD 3 0 = 3 ∨ b.getD 3 0 = 4))) :
    talkFrom (n, .request) ⟨offset, b ++ r⟩ = ⟨[], .error .rejected, False⟩ := by
  have hdomain : ¬ (b.getD 1 0 = 0 ∧ b.getD 3 0 = 3) :=
    fun hboth => h ⟨hboth.1, .inr (.inl hboth.2)⟩
  have hresult : connectReply ⟨offset, b ++ r⟩ = .error .rejected := by
    rw [connectReply, take_bind hb]
    by_cases hreply : b.getD 1 0 = 0
    · rw [if_pos hreply, boundAddress, if_neg fun heq => h ⟨hreply, .inl heq⟩,
        if_neg fun heq => h ⟨hreply, .inr (.inl heq)⟩,
        if_neg fun heq => h ⟨hreply, .inr (.inr heq)⟩]
      rfl
    · rw [if_neg hreply]
      rfl
  have hlength : ∀ c', connectDomainLength ⟨offset, b ++ r⟩ ≠ .ok (0, c') := by
    intro c'
    rw [connectDomainLength, take_bind hb, if_neg hdomain]
    exact giveUp_ne_ok
  simp only [talkFrom, hresult, hlength, exists_false]

variable {tag : SocksTag}

theorem talkFrom_request_fixed {k : Nat} (hb : b.length = 4) (hreply : b.getD 1 0 = 0)
    (htype : b.getD 3 0 = 1 ∧ k = 4 ∧ tag = .receiveBindAddr4 ∨
      b.getD 3 0 = 4 ∧ k = 16 ∧ tag = .receiveBindAddr6) :
    talkFrom (n, .request) ⟨offset, b ++ r⟩ = (talkFrom (k, tag) ⟨offset + 4, r⟩).after [] := by
  have hdomain : ¬ (b.getD 1 0 = 0 ∧ b.getD 3 0 = 3) := by
    grind
  have hlength : ∀ c', connectDomainLength ⟨offset, b ++ r⟩ ≠ .ok (0, c') := by
    intro c'
    rw [connectDomainLength, take_bind hb, if_neg hdomain]
    exact giveUp_ne_ok
  have hresult : connectReply ⟨offset, b ++ r⟩ = restOfReply k ⟨offset + 4, r⟩ := by
    rw [connectReply, take_bind hb, if_pos hreply]
    rcases htype with ⟨htype, rfl, -⟩ | ⟨htype, rfl, -⟩
    · rw [htype]
      rfl
    · rw [htype]
      rfl
  rcases htype with ⟨-, rfl, rfl⟩ | ⟨-, rfl, rfl⟩ <;>
    simp only [talkFrom, hresult, hlength, exists_false, Talk.after, List.append_nil]

theorem talkFrom_request_domain {n' : Nat} (hb : b.length = 4) (hreply : b.getD 1 0 = 0)
    (htype : b.getD 3 0 = 3) :
    talkFrom (n, .request) ⟨offset, b ++ r⟩ =
      (talkFrom (n', .receiveBindAddrDomainNameLength) ⟨offset + 4, r⟩).after [] := by
  have hresult : connectReply ⟨offset, b ++ r⟩ =
      (do let _ ← boundDomain; let _ ← take 2; return () : Reader Unit) ⟨offset + 4, r⟩ := by
    rw [connectReply, take_bind hb, if_pos hreply, htype]
    rfl
  have hlength : connectDomainLength ⟨offset, b ++ r⟩ =
      (do let length ← take 1; return length.getD 0 0 : Reader UInt8) ⟨offset + 4, r⟩ := by
    rw [connectDomainLength, take_bind hb, if_pos ⟨hreply, htype⟩]
  simp only [talkFrom, hresult, hlength, Talk.after, List.append_nil]

theorem phase_request (hb : b.length = 4) (htalk : ∀ more, talk (stream ++ more) =
      (talkFrom (n, .request) ⟨offset, b ++ (r ++ more)⟩).after sent) :
    Phase aes random s stream (didReadData s (resumed s sent r) b .request) := by
  by_cases hreply : b.getD 1 0 = 0
  · by_cases h1 : b.getD 3 0 = 1
    · have hread : didReadData s (resumed s sent r) b .request =
          { resumed s (sent ++ []) r with socksRead := some (4, .receiveBindAddr4) } := by
        simp only [didReadData, resumed, hb, hreply, h1, ne_eq, not_true_eq_false,
          Bool.false_eq_true, if_false, if_true, readDataToLength, List.append_nil]
        rfl
      rw [hread]
      exact phase_asks htalk .receiveBindAddr4 fun r' =>
        talkFrom_request_fixed hb hreply (.inl ⟨h1, rfl, rfl⟩)
    · by_cases h3 : b.getD 3 0 = 3
      · have hread : didReadData s (resumed s sent r) b .request =
            { resumed s (sent ++ []) r with
              socksRead := some (1, .receiveBindAddrDomainNameLength) } := by
          rw [h3] at h1
          simp only [didReadData, resumed, hb, hreply, h1, h3, ne_eq, not_true_eq_false,
            Bool.false_eq_true, if_false, if_true, readDataToLength, List.append_nil]
          rfl
        rw [hread]
        exact phase_asks htalk .receiveBindAddrDomainNameLength fun r' =>
          talkFrom_request_domain hb hreply h3
      · by_cases h4 : b.getD 3 0 = 4
        · have hread : didReadData s (resumed s sent r) b .request =
              { resumed s (sent ++ []) r with socksRead := some (16, .receiveBindAddr6) } := by
            rw [h4] at h1 h3
            simp only [didReadData, resumed, hb, hreply, h1, h3, h4, ne_eq, not_true_eq_false,
              Bool.false_eq_true, if_false, if_true, readDataToLength, List.append_nil]
            rfl
          rw [hread]
          exact phase_asks htalk .receiveBindAddr6 fun r' =>
            talkFrom_request_fixed hb hreply (.inr ⟨h4, rfl, rfl⟩)
        · have hread : didReadData s (resumed s sent r) b .request =
              closeAndNotify (resumed s sent r) := by
            simp only [didReadData, resumed, hb, hreply, h1, h3, h4, ne_eq, not_true_eq_false,
              Bool.false_eq_true, if_false]
          rw [hread]
          refine phase_refused htalk fun r' => talkFrom_request_refused hb ?_
          rintro ⟨-, heq | heq | heq⟩
          · exact h1 heq
          · exact h3 heq
          · exact h4 heq
  · have hread : didReadData s (resumed s sent r) b .request =
        closeAndNotify (resumed s sent r) := by
      simp only [didReadData, resumed, hb, hreply, ne_eq, not_true_eq_false, not_false_eq_true,
        Bool.false_eq_true, if_false, if_true]
    rw [hread]
    exact phase_refused htalk fun r' => talkFrom_request_refused hb fun h => hreply h.1

theorem boundDomain_append (hb : b.length = 1) :
    boundDomain ⟨offset, b ++ r⟩ = take (b.getD 0 0).toNat ⟨offset + 1, r⟩ := by
  rw [boundDomain, take_bind hb]

theorem phase_domainNameLength (hb : b.length = 1) (htalk : ∀ more, talk (stream ++ more) =
      (talkFrom (n, .receiveBindAddrDomainNameLength) ⟨offset, b ++ (r ++ more)⟩).after sent) :
    Phase aes random s stream
      (didReadData s (resumed s sent r) b .receiveBindAddrDomainNameLength) := by
  have hlength : ∀ r', (do let length ← take 1; return length.getD 0 0 : Reader UInt8)
      ⟨offset, b ++ r'⟩ = .ok (b.getD 0 0, ⟨offset + 1, r'⟩) := by
    intro r'
    rw [take_bind hb]
    rfl
  by_cases hempty : b.getD 0 0 = 0
  · have hread : didReadData s (resumed s sent r) b .receiveBindAddrDomainNameLength =
        resumed s sent r := by
      simp only [didReadData, resumed, hb, hempty, ne_eq, not_true_eq_false,
        Bool.false_eq_true, if_false, readDataToLength, UInt8.toNat_zero, if_true]
    rw [hread]
    refine .stuck sent r rfl ?_
    intro more
    rw [htalk]
    refine ⟨List.append_nil sent, ⟨offset + 1, r ++ more⟩, ?_⟩
    rw [hlength, hempty]
  · have hne : (b.getD 0 0).toNat ≠ 0 := fun hzero => hempty (UInt8.toNat_inj.1 hzero)
    have hread : didReadData s (resumed s sent r) b .receiveBindAddrDomainNameLength =
        { resumed s (sent ++ []) r with
          socksRead := some ((b.getD 0 0).toNat, .receiveBindAddrDomainName) } := by
      simp only [didReadData, resumed, hb, hne, ne_eq, not_true_eq_false,
        Bool.false_eq_true, if_false, readDataToLength, List.append_nil]
    rw [hread]
    refine phase_asks htalk (.receiveBindAddrDomainName _ hne) fun r' =>
      (?_ : _ = (talkFrom _ ⟨offset + 1, r'⟩).after [])
    have hnone : ∀ c', (do let length ← take 1; return length.getD 0 0 : Reader UInt8)
        ⟨offset, b ++ r'⟩ ≠ .ok (0, c') := by
      intro c' heq
      rw [hlength] at heq
      exact hempty (Prod.mk.inj (Except.ok.inj heq)).1
    simp only [talkFrom, hnone, exists_false, Talk.after, List.append_nil]
    rw [restOfReply, bind_apply, bind_apply, boundDomain_append hb]

theorem talkFrom_address (hb : b.length = n)
    (htag : tag = .receiveBindAddrDomainName ∨ tag = .receiveBindAddr4 ∨
      tag = .receiveBindAddr6) :
    talkFrom (n, tag) ⟨offset, b ++ r⟩ =
      (talkFrom (2, .receiveBindAddrPort) ⟨offset + n, r⟩).after [] := by
  have hresult : restOfReply n ⟨offset, b ++ r⟩ =
      (do let _ ← take 2; return () : Reader Unit) ⟨offset + n, r⟩ := by
    rw [restOfReply, take_bind hb]
  rcases htag with rfl | rfl | rfl <;>
    simp only [talkFrom, hresult, Talk.after, List.append_nil]

theorem phase_address (hb : b.length = n)
    (htag : tag = .receiveBindAddrDomainName ∨ tag = .receiveBindAddr4 ∨
      tag = .receiveBindAddr6) (htalk : ∀ more, talk (stream ++ more) =
      (talkFrom (n, tag) ⟨offset, b ++ (r ++ more)⟩).after sent) :
    Phase aes random s stream (didReadData s (resumed s sent r) b tag) := by
  have hread : didReadData s (resumed s sent r) b tag =
      { resumed s (sent ++ []) r with socksRead := some (2, .receiveBindAddrPort) } := by
    rw [List.append_nil]
    rcases htag with rfl | rfl | rfl <;> rfl
  rw [hread]
  exact phase_asks htalk .receiveBindAddrPort fun r' => talkFrom_address hb htag

/-- Behind the port the packets begin. -/
theorem phase_port (hb : b.length = 2) (htalk : ∀ more, talk (stream ++ more) =
      (talkFrom (n, .receiveBindAddrPort) ⟨offset, b ++ (r ++ more)⟩).after sent) :
    Phase aes random s stream (didReadData s (resumed s sent r) b .receiveBindAddrPort) := by
  refine .opened sent (offset + 2) [.arrives r] rfl rfl rfl rfl ?_
  intro more
  have hresult : (do let _ ← take 2; return () : Reader Unit) ⟨offset, b ++ (r ++ more)⟩ =
      .ok ((), ⟨offset + 2, r ++ more⟩) := by
    rw [take_bind hb]
    rfl
  rw [htalk, talkFrom, hresult, Talk.after, List.append_nil]
  simp only [TcpFraming.arrivals, List.flatMap_cons, List.flatMap_nil, List.append_nil]

theorem phase_didRead (hasks : Asks pending) (hb : b.length = pending.1)
    (htalk : ∀ more, talk (stream ++ more) =
      (talkFrom pending ⟨offset, b ++ (r ++ more)⟩).after sent) :
    Phase aes random s stream (didReadData s (resumed s sent r) b pending.2) := by
  cases hasks with
  | login => exact phase_login hb htalk
  | receiveAuthResponse => exact phase_auth hb htalk
  | request => exact phase_request hb htalk
  | receiveBindAddr4 => exact phase_address hb (.inr (.inl rfl)) htalk
  | receiveBindAddr6 => exact phase_address hb (.inr (.inr rfl)) htalk
  | receiveBindAddrDomainNameLength => exact phase_domainNameLength hb htalk
  | receiveBindAddrDomainName n hn => exact phase_address hb (.inl rfl) htalk
  | receiveBindAddrPort => exact phase_port hb htalk

variable {c : Proxied}

theorem phase_completeRead {c' : Proxied} (h : Phase aes random s stream c)
    (hread : completeRead aes s c = some c') : Phase aes random s stream c' := by
  cases h with
  | asks sent pending offset received hpending hc htalk =>
    subst hc
    obtain ⟨n, tag⟩ := pending
    by_cases hle : n ≤ received.length
    · have hnext : completeRead aes s
          { connection := { received }, socksRead := some (n, tag),
            requests := sent.map s.bytes } =
          some (didReadData s (resumed s sent (received.drop n)) (received.take n) tag) := by
        simp only [completeRead, hle, if_true]
        rfl
      rw [hnext] at hread
      obtain rfl := Option.some.inj hread
      have hlength : (received.take n).length = n := by
        rw [List.length_take]
        omega
      have hbehind : ∀ more, talk (stream ++ more) = (talkFrom (n, tag)
          ⟨offset, received.take n ++ (received.drop n ++ more)⟩).after sent := by
        intro more
        rw [htalk, ← List.append_assoc (received.take n), List.take_append_drop]
      exact phase_didRead hpending hlength hbehind
    · simp only [completeRead, hle, if_false] at hread
      cases hread
  | stuck sent received hc htalk =>
    subst hc
    cases hread
  | refused sent hclosed hpending hsocks hopened hrequests htalk =>
    simp only [completeRead, hsocks, TcpFraming.completeRead, hpending] at hread
    cases hread
  | opened sent offset events hconnection hsocks hopened hrequests htalk =>
    simp only [completeRead, hsocks] at hread
    obtain ⟨connection, hnext, rfl⟩ := Option.map_eq_some_iff.1 hread
    have harrivals : TcpFraming.arrivals (events ++ [TcpFraming.Event.reads]) =
        TcpFraming.arrivals events := by
      simp [TcpFraming.arrivals]
    refine .opened sent offset (events ++ [TcpFraming.Event.reads]) ?_ rfl hopened hrequests ?_
    · rw [run_append, ← hconnection, run_cons, run_nil, TcpFraming.step, hnext]
      rfl
    · rw [harrivals]
      exact htalk

theorem phase_arrives (chunk : Data) (h : Phase aes random s stream c) :
    Phase aes random s (stream ++ chunk) (step aes random s c (.arrives chunk)) := by
  cases h with
  | asks sent pending offset received hpending hc htalk =>
    subst hc
    refine .asks sent pending offset (received ++ chunk) hpending rfl fun more => ?_
    rw [List.append_assoc, htalk, List.append_assoc]
  | stuck sent received hc htalk =>
    subst hc
    refine .stuck sent (received ++ chunk) rfl fun more => ?_
    rw [List.append_assoc]
    exact htalk _
  | refused sent hclosed hpending hsocks hopened hrequests htalk =>
    refine .refused sent hclosed hpending hsocks hopened hrequests fun more => ?_
    rw [List.append_assoc]
    exact htalk _
  | opened sent offset events hconnection hsocks hopened hrequests htalk =>
    have harrivals : TcpFraming.arrivals (events ++ [TcpFraming.Event.arrives chunk]) =
        TcpFraming.arrivals events ++ chunk := by
      simp [TcpFraming.arrivals]
    refine .opened sent offset (events ++ [TcpFraming.Event.arrives chunk]) ?_ hsocks hopened
      hrequests ?_
    · rw [run_append, ← hconnection]
      rfl
    · intro more
      rw [List.append_assoc, htalk, harrivals, List.append_assoc]

theorem phase_sends (datas : List Data) (requestQuickAck : Bool) (h : Phase aes random s stream c) :
    Phase aes random s stream (step aes random s c (.sends datas requestQuickAck)) := by
  by_cases hopen : c.opened = 0
  · rw [step, if_pos hopen]
    exact h
  · cases h with
    | asks sent pending offset received hpending hc htalk =>
      subst hc
      exact absurd rfl hopen
    | stuck sent received hc htalk =>
      subst hc
      exact absurd rfl hopen
    | refused sent hclosed hpending hsocks hopened hrequests htalk => exact absurd hopened hopen
    | opened sent offset events hconnection hsocks hopened hrequests htalk =>
      have harrivals : TcpFraming.arrivals
          (events ++ [TcpFraming.Event.sends datas requestQuickAck]) =
          TcpFraming.arrivals events := by
        simp [TcpFraming.arrivals]
      rw [step, if_neg hopen]
      refine .opened sent offset (events ++ [TcpFraming.Event.sends datas requestQuickAck]) ?_
        hsocks hopened hrequests ?_
      · rw [run_append, ← hconnection]
        rfl
      · rw [harrivals]
        exact htalk

theorem phase_run (events : List TcpFraming.Event) :
    ∀ {stream : Data} {c : Proxied}, Phase aes random s stream c →
      Phase aes random s (stream ++ TcpFraming.arrivals events)
        (run (step aes random s) c events) := by
  induction events with
  | nil =>
    intro stream c h
    rw [show TcpFraming.arrivals [] = [] from rfl, List.append_nil]
    exact h
  | cons event events ih =>
    intro stream c h
    cases event with
    | sends datas requestQuickAck => exact ih (phase_sends datas requestQuickAck h)
    | arrives chunk =>
      have harrivals : TcpFraming.arrivals (.arrives chunk :: events) =
          chunk ++ TcpFraming.arrivals events := by
        simp [TcpFraming.arrivals]
      rw [harrivals, ← List.append_assoc]
      exact ih (phase_arrives chunk h)
    | reads =>
      refine ih ?_
      rw [step]
      cases hread : completeRead aes s c with
      | none => exact h
      | some c' => exact phase_completeRead h hread

theorem parse_methods (s : Settings) :
    parseMessage .methods (s.bytes .methods) = some (s.meant .methods) := by
  cases hname : s.socksUsername with
  | none =>
    simp only [Settings.bytes, identRequest, Settings.meant, hname]
    rfl
  | some name =>
    simp only [Settings.bytes, identRequest, Settings.meant, hname]
    rfl

theorem parse_credentials_of_le {username password : Data} (husername : username.length ≤ 255)
    (hpassword : password.length ≤ 255) :
    parseCredentials ([1, UInt8.ofNat username.length] ++ username ++
      [UInt8.ofNat password.length] ++ password) = some (.credentials username password) := by
  have hbyte : ∀ n : Nat, n ≤ 255 → (UInt8.ofNat n).toNat = n := by
    intro n hn
    rw [UInt8.toNat_ofNat']
    exact Nat.mod_eq_of_lt (by omega)
  have hbytes : [1, UInt8.ofNat username.length] ++ username ++
      [UInt8.ofNat password.length] ++ password = 1 :: UInt8.ofNat username.length ::
        (username ++ UInt8.ofNat password.length :: password) := by
    simp
  rw [hbytes, parseCredentials, hbyte _ husername, List.drop_left]
  dsimp only
  rw [hbyte _ hpassword, if_pos rfl, List.take_left]

theorem length_of_parseCredentials {bytes username password : Data}
    (h : parseCredentials bytes = some (.credentials username password)) :
    bytes.length = 3 + username.length + password.length := by
  unfold parseCredentials at h
  split at h
  · rename_i usernameLength rest
    split at h
    · rename_i passwordLength password' hdrop
      split at h
      · obtain ⟨rfl, rfl⟩ := Message.credentials.inj (Option.some.inj h)
        have hlength := congrArg List.length hdrop
        rw [List.length_drop, List.length_cons] at hlength
        rw [List.length_cons, List.length_cons, List.length_take]
        omega
      · cases h
    · cases h
  · cases h

theorem parse_credentials_iff (s : Settings) :
    parseMessage .credentials (s.bytes .credentials) = some (s.meant .credentials) ↔
      (s.socksUsername.getD []).length ≤ 255 ∧ (s.socksPassword.getD []).length ≤ 255 := by
  have hlength : (s.bytes .credentials).length =
      3 + (s.socksUsername.getD []).length + (s.socksPassword.getD []).length := by
    simp only [Settings.bytes, authRequest, List.length_append, List.length_cons,
      List.length_nil]
    omega
  constructor
  · intro h
    have hparse : parseCredentials (s.bytes .credentials) = some (.credentials
        ((s.socksUsername.getD []).take 255) ((s.socksPassword.getD []).take 255)) := h
    have hparsed := length_of_parseCredentials hparse
    rw [hlength, List.length_take, List.length_take] at hparsed
    omega
  · rintro ⟨husername, hpassword⟩
    rw [Settings.meant, List.take_of_length_le husername, List.take_of_length_le hpassword]
    simp only [parseMessage, Settings.bytes, authRequest, Nat.min_eq_left husername,
      Nat.min_eq_left hpassword]
    exact parse_credentials_of_le husername hpassword

theorem parse_request_iff (s : Settings) :
    parseMessage .request (s.bytes .request) = some (s.meant .request) ↔
      ∃ bytes, s.ip = .ipv4 bytes := by
  have hparse : parseMessage .request (s.bytes .request) =
      some (.request (.ipv4 ((inetAton s.ip).getD s.ip4).toList) s.port.toNat) := by
    have hlength : ((inetAton s.ip).getD s.ip4).toList.length = 4 := Vector.length_toList
    have hport : beNat (natBEWidth 2 s.port.toNat) = s.port.toNat :=
      beNat_natBEWidth (lt_of_lt_of_le s.port.toNat_lt (by decide))
    show parseAddress .ipv4 4 (((inetAton s.ip).getD s.ip4).toList ++
      natBEWidth 2 s.port.toNat) = _
    rw [parseAddress, List.length_append, hlength, length_natBEWidth, if_pos rfl,
      List.take_left' hlength, List.drop_left' hlength, hport]
  rw [hparse, Settings.meant]
  cases hip : s.ip with
  | ipv4 bytes => simp [inetAton, Host.destination]
  | ipv6 bytes => simp [Host.destination]

theorem requests_iff (s : Settings) (stream : Data) :
    List.Forall₂ (fun bytes stage => parseMessage stage bytes = some (s.meant stage))
        ((stages stream).map s.bytes) (stages stream) ↔
      (.credentials ∈ stages stream →
        (s.socksUsername.getD []).length ≤ 255 ∧ (s.socksPassword.getD []).length ≤ 255) ∧
      (.request ∈ stages stream → ∃ bytes, s.ip = .ipv4 bytes) := by
  rw [List.forall₂_map_left_iff, List.forall₂_same]
  constructor
  · grind [parse_credentials_iff, parse_request_iff]
  · rintro ⟨hcredentials, hrequest⟩ stage hmem
    cases stage with
    | methods => exact parse_methods s
    | credentials => exact (parse_credentials_iff s).2 (hcredentials hmem)
    | request => exact (parse_request_iff s).2 (hrequest hmem)

theorem endOfData_of_asks {c : Cursor} (h : Asks (n, tag)) (hshort : c.rest.length < n) :
    talkFrom (n, tag) c = ⟨[], .error .endOfData, False⟩ := by
  have htake : take n c = .error .endOfData := take_of_lt hshort
  cases h <;>
    simp only [talkFrom, stagesAfterMethod, stagesAfterAuth, replies, methodReply, authReply,
      connectReply, connectDomainLength, domainLength, boundDomain, restOfReply, bind_apply, htake,
      reduceCtorEq, exists_false]

/-- What the grammars say of a stream, read off its talk. -/
theorem talk_fields {sent : List Stage} {result : Except Fault (Unit × Cursor)}
    {emptyDomain : Prop} (h : talk stream = ⟨sent, result, emptyDomain⟩) :
    stages stream = sent ∧ replies (Cursor.start stream) = result ∧
      EmptyDomain stream = emptyDomain :=
  Talk.mk.inj h

theorem meets_iff_clean (hrequests : c.requests = (stages stream).map s.bytes)
    (hdomain : ¬ EmptyDomain stream) (houtcome :
      match replies (Cursor.start stream) with
      | .ok (_, cursor) => c.opened = 1 ∧ ∃ events,
          c.connection = run (TcpFraming.step aes random) TcpFraming.started events ∧
            TcpFraming.arrivals events = cursor.rest
      | .error .endOfData =>
        c.opened = 0 ∧ c.connection.closed = false ∧ c.socksRead.isSome = true
      | .error _ => c.opened = 0 ∧ c.connection.closed = true) :
    Meets aes random s stream c ↔ Clean s stream := by
  have hiff := requests_iff s stream
  rw [← hrequests] at hiff
  constructor
  · intro h
    obtain ⟨hcredentials, hrequest⟩ := hiff.1 h.requests
    exact ⟨hcredentials, hrequest, hdomain⟩
  · intro h
    exact ⟨hiff.2 ⟨h.credentials, h.request⟩, houtcome⟩

/-- Where a run stands is what is to hold of it, if its requests are parsed. -/
theorem meets_of_phase (h : Phase aes random s stream c) (hread : completeRead aes s c = none) :
    Meets aes random s stream c ↔ Clean s stream := by
  cases h with
  | asks sent pending offset received hpending hc htalk =>
    subst hc
    obtain ⟨n, tag⟩ := pending
    have hshort : received.length < n := by
      by_contra hle
      have hsome : n ≤ received.length := by omega
      simp only [completeRead, hsome, if_true] at hread
      cases hread
    have hend := htalk []
    rw [List.append_nil, List.append_nil, endOfData_of_asks hpending hshort, Talk.after,
      List.append_nil] at hend
    obtain ⟨hstages, hresult, hdomain⟩ := talk_fields hend
    refine meets_iff_clean ?_ ?_ ?_
    · rw [hstages]
    · rw [hdomain]
      exact id
    · rw [hresult]
      exact ⟨rfl, rfl, rfl⟩
  | stuck sent received hc htalk =>
    subst hc
    have hempty := (htalk []).2
    rw [List.append_nil] at hempty
    refine iff_of_false ?_ fun hclean => hclean.domain hempty
    intro hmeets
    have houtcome := hmeets.outcome
    split at houtcome
    · exact Nat.zero_ne_one houtcome.1
    · exact Bool.false_ne_true houtcome.2.2
    · exact Bool.false_ne_true houtcome.2
  | refused sent hclosed hpending hsocks hopened hrequests htalk =>
    have hend := htalk []
    rw [List.append_nil] at hend
    obtain ⟨hstages, hresult, hdomain⟩ := talk_fields hend
    refine meets_iff_clean ?_ ?_ ?_
    · rw [hstages, hrequests]
    · rw [hdomain]
      exact id
    · rw [hresult]
      exact ⟨hopened, hclosed⟩
  | opened sent offset events hconnection hsocks hopened hrequests htalk =>
    have hend := htalk []
    rw [List.append_nil, List.append_nil] at hend
    obtain ⟨hstages, hresult, hdomain⟩ := talk_fields hend
    refine meets_iff_clean ?_ ?_ ?_
    · rw [hstages, hrequests]
    · rw [hdomain]
      exact id
    · rw [hresult]
      exact ⟨hopened, events, hconnection, rfl⟩

/-- A closed connection reads and writes nothing. -/
structure Ended (c d : Proxied) : Prop where
  closed : d.connection.closed = true
  idle : d.connection.pendingRead = none
  socksIdle : d.socksRead = none
  opened : d.opened = c.opened
  requests : d.requests = c.requests

theorem Ended.step {d : Proxied} (event : TcpFraming.Event) (h : Ended c d) :
    Ended c (step aes random s d event) := by
  cases event with
  | sends datas requestQuickAck =>
    have hconnection : TcpFraming.step aes random d.connection
        (.sends datas requestQuickAck) = d.connection := by
      rw [TcpFraming.step, TcpFraming.sendDatas, if_pos h.closed]
    rw [SocksDialogue.step, hconnection]
    split
    · exact h
    · exact ⟨h.closed, h.idle, h.socksIdle, h.opened, h.requests⟩
  | arrives chunk => exact ⟨h.closed, h.idle, h.socksIdle, h.opened, h.requests⟩
  | reads =>
    have hnone : completeRead aes s d = none := by
      simp only [completeRead, h.socksIdle, TcpFraming.completeRead, h.idle, Option.map_none]
    rw [SocksDialogue.step, hnone]
    exact h

theorem staysClosed (c : Proxied) : StaysClosed aes random s c := by
  intro events
  have hended : Ended c (run (step aes random s) (closeAndNotify c) events) :=
    run_invariant (fun d event h => h.step event) events _ ⟨rfl, rfl, rfl, rfl, rfl⟩
  exact ⟨hended.closed, hended.opened, hended.requests⟩

/-- The requests name what they should, and the dialogue ends when the proxy has answered, if
and only if nothing goes wrong. -/
theorem socks_dialogue (aes : Data → Data → Data) (random : Nat → UInt8) (s : Settings)
    (events : List TcpFraming.Event)
    (hread : completeRead aes s (run (step aes random s) (start s) events) = none) :
    (Meets aes random s (TcpFraming.arrivals events) (run (step aes random s) (start s) events) ∧
        StaysClosed aes random s (run (step aes random s) (start s) events)) ↔
      Clean s (TcpFraming.arrivals events) := by
  rw [and_iff_left (staysClosed _)]
  exact meets_of_phase (phase_run events (phase_start aes random s)) hread

/-! ## Every run comes to rest -/

/-- A connection is closed or asks for something, and for the head of a packet only when more
of the packet follows. -/
def Asking (c : Connection) : Prop :=
  match c.pendingRead with
  | none => c.closed = true
  | some (n, tag) => 0 < n ∧ (tag = .packetHead → 0 < c.packetRestLength)

/-- A connection that asks for something behind the bytes that came. -/
structure Advances (c d : Connection) : Prop where
  received : d.received = c.received
  asking : Asking d

variable {d : Connection}

theorem advances_readDataToLength {c : Connection} (hreceived : d.received = c.received)
    {length : Nat} (hlength : length ≠ 0) {tag : TcpFraming.ReadTag}
    (hrest : tag = .packetHead → 0 < d.packetRestLength) :
    Advances c (TcpFraming.readDataToLength d length tag) := by
  rw [TcpFraming.readDataToLength, if_neg hlength]
  exact ⟨hreceived, Nat.pos_of_ne_zero hlength, hrest⟩

theorem advances_readPacket {c : Connection} (hreceived : d.received = c.received)
    {length : Nat} (hlength : length ≠ 0) : Advances c (TcpFraming.readPacket d length) := by
  by_cases hlong : TcpFraming.progressCalculationThreshold ≤ length
  · rw [TcpFraming.readPacket, if_pos hlong]
    have hle : 4096 ≤ length := hlong
    apply advances_readDataToLength
    exacts [hreceived, by decide, fun _ => show 0 < length - 128 by omega]
  · rw [TcpFraming.readPacket, if_neg hlong]
    apply advances_readDataToLength
    exacts [hreceived, hlength, nofun]

theorem advances_didReadPlain {c : Connection} (hreceived : d.received = c.received)
    (data : Data) (tag : TcpFraming.ReadTag) (hrest : tag = .packetHead → 0 < d.packetRestLength) :
    Advances c (TcpFraming.didReadPlain d data tag) := by
  cases tag with
  | packetShortLength =>
    rw [TcpFraming.didReadPlain]
    split_ifs with _ hshort
    · apply advances_readDataToLength
      exacts [hreceived, by decide, nofun]
    · rw [Bool.and_eq_true_iff, decide_eq_true_eq, UInt8.le_iff_toNat_le] at hshort
      have hpos : 1 ≤ (data.headD 0).toNat := hshort.1
      exact advances_readPacket hreceived (by omega)
    · apply advances_readDataToLength
      exacts [hreceived, by decide, nofun]
    · exact ⟨hreceived, rfl⟩
  | packetLongLength =>
    rw [TcpFraming.didReadPlain]
    split_ifs with hrange
    · exact ⟨hreceived, rfl⟩
    · exact advances_readPacket hreceived (by omega)
  | packetHead =>
    apply advances_readDataToLength
    exacts [hreceived, (hrest rfl).ne', nofun]
  | packetBody | quickAck =>
    apply advances_readDataToLength
    exacts [hreceived, by decide, nofun]

theorem advances_didReadData {c : Connection} (hreceived : d.received = c.received)
    (hidle : d.pendingRead = none) (data : Data) (tag : TcpFraming.ReadTag)
    (hrest : tag = .packetHead → 0 < d.packetRestLength) :
    Advances c (TcpFraming.didReadData aes d data tag) := by
  unfold TcpFraming.didReadData
  split
  · rename_i hclosed
    exact ⟨hreceived, by rw [Asking, hidle]; exact hclosed⟩
  · split
    · apply advances_didReadPlain
      exacts [hreceived, hrest]
    · apply advances_didReadPlain
      exacts [hreceived, hrest]

theorem asking_sends (datas : List Data) (requestQuickAck : Bool) :
    ∀ c : Connection, Asking c →
      Asking (datas.foldl (TcpFraming.sendData aes random requestQuickAck) c) := by
  induction datas with
  | nil => exact fun c h => h
  | cons data datas ih =>
    intro c h
    refine ih _ ?_
    unfold TcpFraming.sendData
    split
    · split <;> exact h
    · exact h

/-- A plain connection asks for something as long as it is open. -/
theorem asking_run (events : List TcpFraming.Event) :
    Asking (run (TcpFraming.step aes random) TcpFraming.started events) := by
  have hstep : ∀ (c : Connection) (event : TcpFraming.Event), Asking c →
      Asking (TcpFraming.step aes random c event) := by
    intro c event h
    cases event with
    | sends datas requestQuickAck =>
      rw [TcpFraming.step, TcpFraming.sendDatas]
      split
      · exact h
      · exact asking_sends datas requestQuickAck c h
    | arrives chunk => exact h
    | reads =>
      rw [TcpFraming.step]
      cases hread : TcpFraming.completeRead aes c with
      | none => exact h
      | some c' =>
        unfold TcpFraming.completeRead at hread
        split at hread
        · rename_i n tag hpending
          rw [Asking, hpending] at h
          split at hread
          · obtain rfl := Option.some.inj hread
            have hadvances : Advances
                { c with pendingRead := none, received := c.received.drop n }
                (TcpFraming.didReadData aes _ (c.received.take n) tag) :=
              advances_didReadData rfl rfl _ tag h.2
            exact hadvances.asking
          · cases hread
        · cases hread
  exact run_invariant hstep events TcpFraming.started ⟨Nat.one_pos, nofun⟩

theorem received_readDataToLength (c : Proxied) (length : Nat) (tag : SocksTag) :
    (readDataToLength c length tag).connection = c.connection := by
  unfold readDataToLength
  split <;> rfl

theorem received_didReadData (c : Proxied) (rawData : Data) (tag : SocksTag) :
    (didReadData s c rawData tag).connection.received = c.connection.received := by
  unfold didReadData
  split
  · rfl
  · cases tag with
    | receiveBindAddrPort => rfl
    | login | request | receiveBindAddrDomainNameLength | receiveAuthResponse =>
      dsimp only
      split_ifs <;>
        simp only [closeAndNotify, TcpFraming.closeAndNotify, requestSocksConnection, writeData,
          received_readDataToLength]
    | receiveBindAddrDomainName | receiveBindAddr4 | receiveBindAddr6 =>
      rw [received_readDataToLength]

theorem completeRead_shrinks {c' : Proxied} (h : Phase aes random s stream c)
    (hread : completeRead aes s c = some c') :
    c'.connection.received.length < c.connection.received.length := by
  cases h with
  | asks sent pending offset received hpending hc htalk =>
    subst hc
    obtain ⟨n, tag⟩ := pending
    have hpos : 0 < n := by
      cases hpending <;> omega
    by_cases hle : n ≤ received.length
    · simp only [completeRead, hle, if_true, Option.some.injEq] at hread
      rw [← hread, received_didReadData, List.length_drop]
      show received.length - n < received.length
      omega
    · simp only [completeRead, hle, if_false] at hread
      cases hread
  | stuck sent received hc htalk =>
    subst hc
    cases hread
  | refused sent hclosed hpending hsocks hopened hrequests htalk =>
    simp only [completeRead, hsocks, TcpFraming.completeRead, hpending] at hread
    cases hread
  | opened sent offset events hconnection hsocks hopened hrequests htalk =>
    simp only [completeRead, hsocks] at hread
    obtain ⟨connection, hnext, rfl⟩ := Option.map_eq_some_iff.1 hread
    have hasking := @asking_run aes random events
    rw [← hconnection] at hasking
    unfold TcpFraming.completeRead at hnext
    split at hnext
    · rename_i n tag hpending
      rw [Asking, hpending] at hasking
      split at hnext
      · rename_i hle
        obtain rfl := Option.some.inj hnext
        have hadvances : Advances
            { c.connection with pendingRead := none, received := c.connection.received.drop n }
            (TcpFraming.didReadData aes _ (c.connection.received.take n) tag) :=
          advances_didReadData rfl rfl _ tag hasking.2
        rw [hadvances.received, List.length_drop]
        omega
      · cases hnext
    · cases hnext

/-- Every run goes on to one in which all that has come is read. -/
theorem exists_settled (n : Nat) :
    ∀ {c : Proxied}, Phase aes random s stream c → c.connection.received.length ≤ n →
      ∃ m, completeRead aes s (run (step aes random s) c (List.replicate m .reads)) = none := by
  induction n with
  | zero =>
    intro c h hlength
    refine ⟨0, ?_⟩
    cases hread : completeRead aes s c with
    | none => exact hread
    | some c' =>
      have := completeRead_shrinks h hread
      omega
  | succ n ih =>
    intro c h hlength
    cases hread : completeRead aes s c with
    | none => exact ⟨0, hread⟩
    | some c' =>
      have hless := completeRead_shrinks h hread
      obtain ⟨m, hm⟩ := ih (phase_completeRead h hread) (by omega)
      refine ⟨m + 1, ?_⟩
      rw [List.replicate_succ, run_cons, step, hread]
      exact hm

/-- The length of the pending read, of the dialogue or of the framing behind it. -/
def Proxied.pendingLength (c : Proxied) : Option Nat :=
  match c.socksRead with
  | some (length, _) => some length
  | none => c.connection.pendingRead.map (·.1)

/-- Where a connection comes to rest: it waits for bytes that have not come, it is closed, or it
has stopped behind the empty name of a domain. -/
inductive Rests (stream : Data) (c : Proxied) : Prop where
  | waits (n : Nat) (hpending : c.pendingLength = some n) (hshort : c.connection.received.length < n)
  | closed (hpending : c.pendingLength = none) (hclosed : c.connection.closed = true)
  | stuck (hpending : c.pendingLength = none) (hdomain : EmptyDomain stream)

theorem rests_of_phase (h : Phase aes random s stream c) (hread : completeRead aes s c = none) :
    Rests stream c := by
  cases h with
  | asks sent pending offset received hpending hc htalk =>
    subst hc
    obtain ⟨n, tag⟩ := pending
    refine .waits n rfl ?_
    by_contra hle
    simp only [completeRead, Nat.not_lt.1 hle, if_true] at hread
    cases hread
  | stuck sent received hc htalk =>
    subst hc
    have hdomain := (htalk []).2
    rw [List.append_nil] at hdomain
    exact .stuck rfl hdomain
  | refused sent hclosed hpending hsocks hopened hrequests htalk =>
    exact .closed (by rw [Proxied.pendingLength, hsocks, hpending]; rfl) hclosed
  | opened sent offset events hconnection hsocks hopened hrequests htalk =>
    have hasking := @asking_run aes random events
    rw [← hconnection] at hasking
    cases hpending : c.connection.pendingRead with
    | none =>
      rw [Asking, hpending] at hasking
      exact .closed (by rw [Proxied.pendingLength, hsocks, hpending]; rfl) hasking
    | some pending =>
      obtain ⟨n, tag⟩ := pending
      refine .waits n (by rw [Proxied.pendingLength, hsocks, hpending]; rfl) ?_
      by_contra hle
      simp only [completeRead, hsocks, TcpFraming.completeRead, hpending, Nat.not_lt.1 hle,
        if_true] at hread
      cases hread

/-- So every stream of answers, in whatever pieces it comes, is read until the pending read is
longer than what is left, the connection is closed, or an empty domain name has stopped it. -/
theorem run_quiesces (aes : Data → Data → Data) (random : Nat → UInt8) (s : Settings)
    (events : List TcpFraming.Event) :
    ∃ m, let c := run (step aes random s) (start s) (events ++ List.replicate m .reads)
      completeRead aes s c = none ∧ Rests (TcpFraming.arrivals events) c := by
  obtain ⟨m, hm⟩ := exists_settled _ (phase_run events (phase_start aes random s)) le_rfl
  rw [← run_append] at hm
  have hphase := phase_run (events ++ List.replicate m .reads) (phase_start aes random s)
  have harrivals : TcpFraming.arrivals (events ++ List.replicate m .reads) =
      TcpFraming.arrivals events := by
    simp [TcpFraming.arrivals]
  rw [harrivals, List.nil_append] at hphase
  exact ⟨m, hm, rests_of_phase hphase hm⟩

end Phases

/-- A cipher and random bytes that play no part. -/
def plainAes (_ block : Data) : Data := block

def zeroRandom (_ : Nat) : UInt8 := 0

/-- Settings with a destination and a user name. -/
def sampleSettings (ip : Host) (username : Data) : Settings where
  ip := ip
  port := 443
  socksUsername := some username
  socksPassword := some [112]
  ip4 := #v[0, 0, 0, 0]

def ipv4Settings : Settings := sampleSettings (.ipv4 #v[149, 154, 167, 51]) [117]

def ipv6Settings : Settings := sampleSettings (.ipv6 (Vector.replicate 16 1)) [117]

def longSettings : Settings :=
  sampleSettings (.ipv4 #v[149, 154, 167, 51]) (List.replicate 256 117)

/-- The answers come in one piece and are read. -/
def readAll (stream : Data) : List TcpFraming.Event :=
  .arrives stream :: List.replicate 6 .reads

def answered (s : Settings) (stream : Data) : Proxied :=
  run (step plainAes zeroRandom s) (start s) (readAll stream)

theorem arrivals_readAll (stream : Data) : TcpFraming.arrivals (readAll stream) = stream := by
  simp [TcpFraming.arrivals, readAll]

theorem phase_answered (s : Settings) (stream : Data) :
    Phase plainAes zeroRandom s stream (answered s stream) := by
  have hrun := phase_run (readAll stream) (phase_start plainAes zeroRandom s)
  rw [arrivals_readAll] at hrun
  exact hrun

/-- The proxy asks for credentials, accepts them and connects. -/
theorem socks_dialogue_plain :
    Meets plainAes zeroRandom ipv4Settings
        (TcpFraming.arrivals (readAll [5, 2, 1, 0, 5, 0, 0, 1, 0, 0, 0, 0, 0, 0]))
        (answered ipv4Settings [5, 2, 1, 0, 5, 0, 0, 1, 0, 0, 0, 0, 0, 0]) ∧
      StaysClosed plainAes zeroRandom ipv4Settings
        (answered ipv4Settings [5, 2, 1, 0, 5, 0, 0, 1, 0, 0, 0, 0, 0, 0]) := by
  refine (socks_dialogue plainAes zeroRandom ipv4Settings
    (readAll [5, 2, 1, 0, 5, 0, 0, 1, 0, 0, 0, 0, 0, 0]) (by decide +kernel)).2 ⟨?_, ?_, ?_⟩
  · intro _
    exact ⟨by decide, by decide⟩
  · intro _
    exact ⟨_, rfl⟩
  · have hrefused : domainLength (Cursor.start
        (TcpFraming.arrivals (readAll [5, 2, 1, 0, 5, 0, 0, 1, 0, 0, 0, 0, 0, 0]))) =
        .error .rejected := by decide +kernel
    rintro ⟨c, hc⟩
    rw [hrefused] at hc
    cases hc

/-- An IPv6 destination, a user name of 256 bytes, and an empty domain name in an answer that
connects. -/
theorem socks_dialogue_fails :
    ¬ Meets plainAes zeroRandom ipv6Settings [5, 0] (answered ipv6Settings [5, 0]) ∧
      ¬ Meets plainAes zeroRandom longSettings [5, 2] (answered longSettings [5, 2]) ∧
      ¬ Meets plainAes zeroRandom ipv4Settings [5, 0, 5, 0, 0, 3, 0, 1, 187]
        (answered ipv4Settings [5, 0, 5, 0, 0, 3, 0, 1, 187]) := by
  refine ⟨?_, ?_, ?_⟩
  · intro h
    have hclean := (meets_of_phase (phase_answered ipv6Settings [5, 0]) (by decide +kernel)).1 h
    obtain ⟨bytes, hbytes⟩ := hclean.request (by decide)
    cases hbytes
  · intro h
    have hclean := (meets_of_phase (phase_answered longSettings [5, 2]) (by decide +kernel)).1 h
    exact absurd (hclean.credentials (by decide)).1 (by decide +kernel)
  · intro h
    have hclean := (meets_of_phase (phase_answered ipv4Settings _) (by decide +kernel)).1 h
    exact hclean.domain ⟨⟨7, [1, 187]⟩, by decide +kernel⟩

end TelegramPub.Ports.SocksDialogue
