import Mathlib.Data.List.Basic

/-!
# Agreement on a new key between two parties

Two parties exchange packets over two channels that keep the order.  Either may start an
exchange when it has none: it chooses an identifier and a number and sends a request.  The
other accepts, and the first commits; or one of them aborts.  When both have started, the
exchange with the larger identifier goes on.

`Handles` says what a party may do with a packet, and `Agree` what holds of both parties and
both channels: up to aborts of exchanges that neither party has, one of the shapes of `Shape`.
Starting an exchange and handling a packet keep it (`Agree.start`, `Agree.handle`), and with
empty channels the parties agree (`Agree.of_nil`).
-/

namespace TelegramPub.Verified.KeyExchange

/-- Powers of a number, and the key that belongs to a power and a number. -/
structure DiffieHellman (ν γ κ : Type*) where
  power : ν → γ
  shared : γ → ν → κ
  fingerprint : κ → Int
  shared_comm : ∀ a b, shared (power a) b = shared (power b) a

/-- The exchange that a party has. -/
inductive Pending (ν κ : Type*) where
  | idle
  | initiator (id : Int) (number : ν)
  | acceptor (id : Int) (key : κ)

inductive Packet (γ : Type*) where
  | request (id : Int) (power : γ)
  | accept (id : Int) (power : γ) (fingerprint : Int)
  | commit (id : Int) (fingerprint : Int)
  | abort (id : Int)

variable {ν γ κ : Type*}

def Pending.id? : Pending ν κ → Option Int
  | .idle => none
  | .initiator id _ => some id
  | .acceptor id _ => some id

/-- Everything but the abort of an exchange that neither party has. -/
def live (p q : Pending ν κ) : Packet γ → Bool
  | .abort id => p.id? = some id ∨ q.id? = some id
  | _ => true

section Shapes

variable (dh : DiffieHellman ν γ κ)

/-- The pending exchanges of two parties, and the packets that each has sent and the other has
not handled. -/
inductive Shape : Pending ν κ → Pending ν κ → List (Packet γ) → List (Packet γ) → Prop
  | idle : Shape .idle .idle [] []
  | requested (e : Int) (a : ν) : Shape (.initiator e a) .idle [.request e (dh.power a)] []
  | both {e e' : Int} (a a' : ν) (h : e ≠ e') :
      Shape (.initiator e a) (.initiator e' a') [.request e (dh.power a)]
        [.request e' (dh.power a')]
  | accepted (e : Int) (a b : ν) :
      Shape (.initiator e a) (.acceptor e (dh.shared (dh.power a) b)) []
        [.accept e (dh.power b) (dh.fingerprint (dh.shared (dh.power a) b))]
  | stuck (e : Int) (a : ν) (k : κ) : Shape (.initiator e a) (.acceptor e k) [] []
  | refused (e : Int) (a : ν) : Shape (.initiator e a) .idle [] [.abort e]
  | refusedRequested {e e' : Int} (a a' : ν) (h : e ≠ e') :
      Shape (.initiator e a) (.initiator e' a') [] [.abort e, .request e' (dh.power a')]
  | crossed {e e' : Int} (a a' : ν) (h : e ≠ e') :
      Shape (.initiator e a) (.initiator e' a') [] [.request e' (dh.power a'), .abort e]
  | aborts {e e' : Int} (a a' : ν) (h : e ≠ e') :
      Shape (.initiator e a) (.initiator e' a') [.abort e'] [.abort e]
  | acceptedCrossed {e e' : Int} (a b : ν) (g : γ) (h : e' < e) :
      Shape (.initiator e a) (.acceptor e (dh.shared (dh.power a) b)) []
        [.request e' g, .accept e (dh.power b) (dh.fingerprint (dh.shared (dh.power a) b))]
  | committed (e : Int) (k : κ) : Shape .idle (.acceptor e k) [.commit e (dh.fingerprint k)] []
  | committedRequested {e e₂ : Int} (k : κ) (a : ν) (h : e₂ ≠ e) :
      Shape (.initiator e₂ a) (.acceptor e k)
        [.commit e (dh.fingerprint k), .request e₂ (dh.power a)] []
  | aborted (e : Int) (k : κ) : Shape .idle (.acceptor e k) [.abort e] []
  | abortedRequested {e e₂ : Int} (k : κ) (a : ν) (h : e₂ ≠ e) :
      Shape (.initiator e₂ a) (.acceptor e k) [.abort e, .request e₂ (dh.power a)] []

/-- What a party may do with a packet: its exchange afterwards, and what it sends. -/
inductive Handles : Pending ν κ → Packet γ → Pending ν κ → List (Packet γ) → Prop
  | accept {q : Pending ν κ} {e : Int} (g : γ) (b : ν) (h : ∀ e', q.id? = some e' → e' ≤ e)
      (hq : ∀ e' k, q ≠ .acceptor e' k) :
      Handles q (.request e g) (.acceptor e (dh.shared g b))
        [.accept e (dh.power b) (dh.fingerprint (dh.shared g b))]
  | refuse {q : Pending ν κ} {e : Int} (g : γ) (hq : ∀ e' k, q ≠ .acceptor e' k) :
      Handles q (.request e g) q [.abort e]
  | busy {e e' : Int} {k : κ} (g : γ) :
      Handles (.acceptor e' k) (.request e g) (.acceptor e' k) []
  | commit {e f : Int} {a : ν} (g : γ) (h : dh.fingerprint (dh.shared g a) = f) :
      Handles (.initiator e a) (.accept e g f) .idle [.commit e f]
  | abortAccept {e : Int} {a : ν} (g : γ) (f : Int) :
      Handles (.initiator e a) (.accept e g f) .idle [.abort e]
  | ignoreAccept {q : Pending ν κ} {e : Int} (g : γ) (f : Int) : Handles q (.accept e g f) q []
  | install {e f : Int} {k : κ} (h : dh.fingerprint k = f) :
      Handles (.acceptor e k) (.commit e f) .idle []
  | ignoreCommit {q : Pending ν κ} {e f : Int}
      (h : ∀ k, q = .acceptor e k → dh.fingerprint k ≠ f) : Handles q (.commit e f) q []
  | aborted {q : Pending ν κ} {e : Int} (h : q.id? = some e) : Handles q (.abort e) .idle []
  | ignoreAbort {q : Pending ν κ} {e : Int} (h : q.id? ≠ some e) : Handles q (.abort e) q []

/-- The parties and the channels fit together. -/
def Agree (p q : Pending ν κ) (sent received : List (Packet γ)) : Prop :=
  Shape dh p q (sent.filter (live p q)) (received.filter (live p q)) ∨
    Shape dh q p (received.filter (live q p)) (sent.filter (live q p))

end Shapes

variable {dh : DiffieHellman ν γ κ} {p q q' : Pending ν κ} {sent received reply : List (Packet γ)}
  {pk : Packet γ}

theorem Agree.symm (h : Agree dh p q sent received) : Agree dh q p received sent := Or.symm h

theorem live_comm (p q : Pending ν κ) : (live p q : Packet γ → Bool) = live q p := by
  funext pk
  cases pk with
  | abort e => simp only [live, or_comm]
  | _ => rfl

/-! ## Aborts that nobody waits for -/

/-- A packet that is live for fewer exchanges is live for more. -/
theorem filter_live_filter (l : List (Packet γ)) {p' q' : Pending ν κ}
    (h : ∀ e, p'.id? = some e ∨ q'.id? = some e → p.id? = some e ∨ q.id? = some e) :
    l.filter (live p' q') = (l.filter (live p q)).filter (live p' q') := by
  rw [List.filter_filter]
  refine List.filter_congr fun pk _ => ?_
  cases pk with
  | abort e =>
    by_cases hlive : p'.id? = some e ∨ q'.id? = some e
    · simp only [live, hlive, h e hlive, decide_true, Bool.and_self]
    · simp only [live, hlive, decide_false, Bool.false_and]
  | _ => rfl

/-- Nothing changes for the packets if an exchange is started that no abort is about. -/
theorem filter_live_start {e : Int} {a : ν} (hfresh : .abort e ∉ sent) :
    sent.filter (live p (.initiator e a)) = sent.filter (live p (.idle : Pending ν κ)) := by
  refine List.filter_congr fun pk hpk => ?_
  cases pk with
  | abort e' =>
    have hne : e ≠ e' := fun heq => hfresh (heq ▸ hpk)
    simp only [live, Pending.id?, Option.some_inj, hne, reduceCtorEq]
  | _ => rfl

/-- It is enough that the live packets fit together. -/
theorem agree_of_filter (h : ∀ e, q'.id? = some e → p.id? = some e ∨ q.id? = some e)
    (hagree : Agree dh p q' (sent.filter (live p q)) (received.filter (live p q) ++ reply)) :
    Agree dh p q' sent (received ++ reply) := by
  have hids : ∀ e, p.id? = some e ∨ q'.id? = some e → p.id? = some e ∨ q.id? = some e :=
    fun e he => he.elim .inl (h e)
  unfold Agree at hagree ⊢
  rw [live_comm q' p] at hagree ⊢
  rw [List.filter_append, ← filter_live_filter sent hids, ← filter_live_filter received hids]
    at hagree
  rw [List.filter_append]
  exact hagree

/-! ## Packets that are handled -/

theorem Shape.handle_second {f g : List (Packet γ)} (h : Shape dh p q (pk :: f) g)
    (hq : Handles dh q pk q' reply) :
    (∀ e, q'.id? = some e → p.id? = some e ∨ q.id? = some e) ∧
      Agree dh p q' f (g ++ reply) := by
  cases h with
  | requested e a =>
    cases hq with
    | accept _ b =>
      refine ⟨fun e' he' => .inl he', .inl ?_⟩
      simpa [List.filter_cons, live] using Shape.accepted e a b
    | refuse =>
      refine ⟨fun e' he' => .inr he', .inl ?_⟩
      simpa [List.filter_cons, live, Pending.id?] using Shape.refused e a
  | both a a' hne =>
    rename_i e e'
    cases hq with
    | accept _ b hle =>
      have hlt : e' < e := Int.lt_iff_le_and_ne.2 ⟨hle e' rfl, hne.symm⟩
      refine ⟨fun e' he' => .inl he', .inl ?_⟩
      simpa [List.filter_cons, live] using Shape.acceptedCrossed a b (dh.power a') hlt
    | refuse =>
      refine ⟨fun e' he' => .inr he', .inl ?_⟩
      simpa [List.filter_cons, live, Pending.id?] using Shape.crossed a a' hne
  | aborts a a' hne =>
    rename_i e e'
    cases hq with
    | aborted =>
      refine ⟨nofun, .inl ?_⟩
      simpa [List.filter_cons, live, Pending.id?] using Shape.refused e a
    | ignoreAbort hne' => exact absurd rfl hne'
  | committed e k =>
    cases hq with
    | install =>
      refine ⟨nofun, .inl ?_⟩
      simpa [List.filter_cons, live] using Shape.idle
    | ignoreCommit hne => exact absurd rfl (hne k rfl)
  | committedRequested k a hne =>
    rename_i e e₂
    cases hq with
    | install =>
      refine ⟨nofun, .inl ?_⟩
      simpa [List.filter_cons, live] using Shape.requested e₂ a
    | ignoreCommit hne => exact absurd rfl (hne k rfl)
  | aborted e k =>
    cases hq with
    | aborted =>
      refine ⟨nofun, .inl ?_⟩
      simpa [List.filter_cons, live] using Shape.idle
    | ignoreAbort hne => exact absurd rfl hne
  | abortedRequested k a hne =>
    rename_i e e₂
    cases hq with
    | aborted =>
      refine ⟨nofun, .inl ?_⟩
      simpa [List.filter_cons, live] using Shape.requested e₂ a
    | ignoreAbort hne => exact absurd rfl hne

theorem Shape.handle_first {f g : List (Packet γ)} (h : Shape dh q p g (pk :: f))
    (hq : Handles dh q pk q' reply) :
    (∀ e, q'.id? = some e → p.id? = some e ∨ q.id? = some e) ∧
      Agree dh p q' f (g ++ reply) := by
  cases h with
  | both a a' hne =>
    rename_i e e'
    cases hq with
    | accept _ b hle =>
      have hlt : e < e' := Int.lt_iff_le_and_ne.2 ⟨hle e rfl, hne⟩
      refine ⟨fun e' he' => .inl he', .inl ?_⟩
      simpa [List.filter_cons, live] using Shape.acceptedCrossed a' b (dh.power a) hlt
    | refuse =>
      refine ⟨fun e' he' => .inr he', .inl ?_⟩
      simpa [List.filter_cons, live, Pending.id?] using Shape.crossed a' a hne.symm
  | accepted e a b =>
    cases hq with
    | commit =>
      refine ⟨nofun, .inr ?_⟩
      simpa [List.filter_cons, live] using Shape.committed e (dh.shared (dh.power a) b)
    | abortAccept =>
      refine ⟨nofun, .inr ?_⟩
      simpa [List.filter_cons, live, Pending.id?] using Shape.aborted e _
    | ignoreAccept =>
      refine ⟨fun e' he' => .inr he', .inr ?_⟩
      simpa [List.filter_cons, live] using Shape.stuck e a _
  | refused e a =>
    cases hq with
    | aborted =>
      refine ⟨nofun, .inr ?_⟩
      simpa [List.filter_cons, live] using Shape.idle
    | ignoreAbort hne => exact absurd rfl hne
  | refusedRequested a a' hne =>
    rename_i e e'
    cases hq with
    | aborted =>
      refine ⟨nofun, .inl ?_⟩
      simpa [List.filter_cons, live] using Shape.requested e' a'
    | ignoreAbort hne => exact absurd rfl hne
  | crossed a a' hne =>
    rename_i e e'
    cases hq with
    | accept _ b hle =>
      refine ⟨fun e' he' => .inl he', .inl ?_⟩
      simpa [List.filter_cons, live, Pending.id?, hne, hne.symm] using Shape.accepted e' a' b
    | refuse =>
      refine ⟨fun e' he' => .inr he', .inr ?_⟩
      simpa [List.filter_cons, live, Pending.id?] using Shape.aborts a a' hne
  | aborts a a' hne =>
    rename_i e e'
    cases hq with
    | aborted =>
      refine ⟨nofun, .inl ?_⟩
      simpa [List.filter_cons, live, Pending.id?] using Shape.refused e' a'
    | ignoreAbort hne' => exact absurd rfl hne'
  | acceptedCrossed a b g hlt =>
    rename_i e e'
    cases hq with
    | accept _ b hle => exact absurd (hle e rfl) (by omega)
    | refuse =>
      have hne : e ≠ e' := by omega
      refine ⟨fun e' he' => .inr he', .inr ?_⟩
      simpa [List.filter_cons, live, Pending.id?, hne] using Shape.accepted e a b

/-- A packet that is not live changes nothing. -/
theorem Handles.eq_of_not_live (h : Handles dh q pk q' reply) (hlive : live p q pk = false) :
    q' = q ∧ reply = [] := by
  cases h with
  | aborted he => simp [live, he] at hlive
  | ignoreAbort => exact ⟨rfl, rfl⟩
  | _ => cases hlive

theorem Agree.handle (h : Agree dh p q (pk :: sent) received)
    (hq : Handles dh q pk q' reply) : Agree dh p q' sent (received ++ reply) := by
  cases hlive : live p q pk with
  | false =>
    obtain ⟨rfl, rfl⟩ := hq.eq_of_not_live hlive
    have hlive' : live q' p pk = false := live_comm p q' ▸ hlive
    unfold Agree at h ⊢
    rw [List.filter_cons, hlive, List.filter_cons, hlive'] at h
    rw [List.append_nil]
    exact h
  | true =>
    have hlive' : live q p pk = true := live_comm p q ▸ hlive
    unfold Agree at h
    rw [List.filter_cons, hlive, List.filter_cons, hlive'] at h
    rcases h with h | h
    · obtain ⟨hids, hagree⟩ := h.handle_second hq
      exact agree_of_filter hids hagree
    · obtain ⟨hids, hagree⟩ := h.handle_first hq
      rw [live_comm q p] at hagree
      exact agree_of_filter hids hagree

theorem Agree.start {e : Int} (a : ν) (h : Agree dh p .idle sent received)
    (hpending : p.id? ≠ some e) (hsent : .abort e ∉ sent) (hreceived : .abort e ∉ received) :
    Agree dh p (.initiator e a) sent (received ++ [.request e (dh.power a)]) := by
  have hrequest : live p (.initiator e a) (.request e (dh.power a)) = true := rfl
  unfold Agree at h ⊢
  rw [live_comm (.initiator e a) p, List.filter_append, List.filter_singleton, hrequest,
    filter_live_start hsent, filter_live_start hreceived]
  rw [live_comm .idle p] at h
  generalize sent.filter (live p .idle) = f at h ⊢
  generalize received.filter (live p .idle) = g at h ⊢
  rcases h with h | h
  · cases h with
    | idle => exact .inr (Shape.requested e a)
    | requested e' a' => exact .inl (Shape.both a' a fun heq => hpending (congrArg some heq))
    | refused e' a' =>
      exact .inl (Shape.refusedRequested a' a fun heq => hpending (congrArg some heq))
  · cases h with
    | idle => exact .inr (Shape.requested e a)
    | committed e' k =>
      exact .inr (Shape.committedRequested k a fun heq => hpending (congrArg some heq.symm))
    | aborted e' k =>
      exact .inr (Shape.abortedRequested k a fun heq => hpending (congrArg some heq.symm))

/-! ## What a shape tells -/

/-- With empty channels neither party has an exchange, or both have the same, one as its
initiator. -/
theorem Agree.of_nil (h : Agree dh p q [] []) :
    (p = .idle ∧ q = .idle) ∨ ∃ e a k, (p = .initiator e a ∧ q = .acceptor e k) ∨
      (q = .initiator e a ∧ p = .acceptor e k) := by
  unfold Agree at h
  rw [List.filter_nil, List.filter_nil] at h
  rcases h with h | h
  · cases h with
    | idle => exact .inl ⟨rfl, rfl⟩
    | stuck e a k => exact .inr ⟨e, a, k, .inl ⟨rfl, rfl⟩⟩
  · cases h with
    | idle => exact .inl ⟨rfl, rfl⟩
    | stuck e a k => exact .inr ⟨e, a, k, .inr ⟨rfl, rfl⟩⟩

/-- A request that is handled is not about the exchange of the party itself. -/
theorem Agree.request_ne {e : Int} {g : γ}
    (h : Agree dh p q (.request e g :: sent) received) : q.id? ≠ some e := by
  unfold Agree at h
  rw [live_comm q p, List.filter_cons_of_pos rfl] at h
  generalize sent.filter (live p q) = f at h
  generalize received.filter (live p q) = g' at h
  rcases h with h | h
  · cases h with
    | requested => exact nofun
    | both a a' hne => exact fun heq => hne (Option.some_inj.1 heq).symm
  · cases h with
    | both a a' hne => exact fun heq => hne (Option.some_inj.1 heq)
    | crossed a a' hne => exact fun heq => hne (Option.some_inj.1 heq)
    | acceptedCrossed a b g hlt =>
      intro heq
      have heq' := Option.some_inj.1 heq
      omega

/-- While a commit is on its way, its receiver is the acceptor and waits for it first, its
sender is not, and no other commit is on its way. -/
theorem Agree.of_commit {e f : Int} (h : Agree dh p q sent received)
    (hcommit : .commit e f ∈ sent) :
    (∃ k, q = .acceptor e k ∧ dh.fingerprint k = f) ∧ (∀ e' k, p ≠ .acceptor e' k) ∧
      (∃ rest, sent.filter (live p q) = .commit e f :: rest ∧ ∀ e' f', .commit e' f' ∉ rest) ∧
      ∀ e' f', .commit e' f' ∉ received := by
  have hmem : .commit e f ∈ sent.filter (live p q) := List.mem_filter.2 ⟨hcommit, rfl⟩
  have hother : ∀ e' f', .commit e' f' ∈ received → .commit e' f' ∈ received.filter (live p q) :=
    fun e' f' hmem => List.mem_filter.2 ⟨hmem, rfl⟩
  unfold Agree at h
  rw [live_comm q p] at h
  generalize sent.filter (live p q) = l at h hmem ⊢
  generalize received.filter (live p q) = l' at h hother
  suffices hshape : (∃ k, q = .acceptor e k ∧ dh.fingerprint k = f) ∧
      (∀ e' k, p ≠ .acceptor e' k) ∧
      (∃ rest, l = .commit e f :: rest ∧ ∀ e' f', .commit e' f' ∉ rest) ∧
      ∀ e' f', .commit e' f' ∉ l' by
    obtain ⟨hq, hp, hl, hl'⟩ := hshape
    exact ⟨hq, hp, hl, fun e' f' hmem' => hl' e' f' (hother e' f' hmem')⟩
  rcases h with h | h
  · cases h with
    | committed e' k =>
      cases List.mem_singleton.1 hmem
      exact ⟨⟨k, rfl, rfl⟩, nofun, ⟨[], rfl, fun _ _ => List.not_mem_nil⟩,
        fun _ _ => List.not_mem_nil⟩
    | committedRequested k a hne =>
      rcases List.mem_cons.1 hmem with hhead | htail
      · cases hhead
        refine ⟨⟨k, rfl, rfl⟩, nofun, ⟨_, rfl, fun e' f' hmem' => ?_⟩,
          fun _ _ => List.not_mem_nil⟩
        exact nomatch List.mem_singleton.1 hmem'
      · exact nomatch List.mem_singleton.1 htail
    | _ => simp at hmem
  · cases h <;> simp at hmem

theorem Agree.of_accept {e f : Int} {g : γ} (h : Agree dh p q (.accept e g f :: sent) received) :
    (∃ a, q = .initiator e a ∧ p = .acceptor e (dh.shared g a) ∧
      dh.fingerprint (dh.shared g a) = f) ∧
      (∀ e' f', .commit e' f' ∉ sent) ∧ ∀ e' f', .commit e' f' ∉ received := by
  have hsent : ∀ e' f', .commit e' f' ∈ sent → .commit e' f' ∈ sent.filter (live p q) :=
    fun e' f' hmem => List.mem_filter.2 ⟨hmem, rfl⟩
  have hreceived : ∀ e' f', .commit e' f' ∈ received →
      .commit e' f' ∈ received.filter (live p q) :=
    fun e' f' hmem => List.mem_filter.2 ⟨hmem, rfl⟩
  unfold Agree at h
  rw [live_comm q p, List.filter_cons_of_pos rfl] at h
  generalize sent.filter (live p q) = l at h hsent
  generalize received.filter (live p q) = l' at h hreceived
  rcases h with h | h
  · cases h
  · cases h with
    | accepted e a b =>
      rw [dh.shared_comm a b]
      exact ⟨⟨a, rfl, rfl, rfl⟩, fun e' f' hmem => absurd (hsent e' f' hmem) List.not_mem_nil,
        fun e' f' hmem => absurd (hreceived e' f' hmem) List.not_mem_nil⟩

/-- A request that the receiver does not refuse is about the exchange of its sender. -/
theorem Agree.of_request {e : Int} {g : γ} (h : Agree dh p q (.request e g :: sent) received)
    (hle : ∀ e', q.id? = some e' → e' ≤ e) : p.id? = some e := by
  unfold Agree at h
  rw [live_comm q p, List.filter_cons_of_pos rfl] at h
  generalize sent.filter (live p q) = l at h
  generalize received.filter (live p q) = l' at h
  rcases h with h | h
  · cases h <;> rfl
  · cases h with
    | both | crossed => rfl
    | acceptedCrossed a b g hlt => exact absurd (hle _ rfl) (by omega)

/-- The commit that is handled is the only one on its way. -/
theorem Agree.not_commit_behind {e f : Int} (h : Agree dh p q (.commit e f :: sent) received) :
    ∀ e' f', .commit e' f' ∉ sent := by
  obtain ⟨-, -, ⟨rest, hrest, hnone⟩, -⟩ := h.of_commit (List.mem_cons_self ..)
  rw [List.filter_cons_of_pos rfl] at hrest
  intro e' f' hmem
  refine hnone e' f' ?_
  rw [← (List.cons.inj hrest).2]
  exact List.mem_filter.2 ⟨hmem, rfl⟩

theorem Agree.before_commit {e f : Int} (h : Agree dh p q (pk :: sent) received)
    (hcommit : .commit e f ∈ sent) (hq : Handles dh q pk q' reply) : q' = q ∧ reply = [] := by
  obtain ⟨-, -, ⟨rest, hrest, hnone⟩, -⟩ := h.of_commit (.tail pk hcommit)
  cases hlive : live p q pk with
  | false => exact hq.eq_of_not_live hlive
  | true =>
    rw [List.filter_cons_of_pos hlive] at hrest
    have hmem : .commit e f ∈ sent.filter (live p q) := List.mem_filter.2 ⟨hcommit, rfl⟩
    rw [(List.cons.inj hrest).2] at hmem
    exact absurd hmem (hnone e f)

end TelegramPub.Verified.KeyExchange
