/-
The socket server, after sock_util.c: the sockets that are polled and their contexts, through a walk over
the slots in which connections come and go.
-/
import Omiiba.Lib.System

namespace Omiiba.Rosalina

/-- `MAX_PORTS` and `MAX_CTXS`. -/
def maxPorts : Nat := 4
def maxCtxs : Nat := 8

/-- `POLLIN`. -/
def pollin : Nat := 1

inductive SocketType
  | none
  | server
  | client
  deriving DecidableEq

/-- Where a context is: one of `serv->serv_ctxs`, or one that `serv->alloc` gives. -/
inductive CtxId
  | server (k : Fin maxPorts)
  | client (j : Nat)
  deriving DecidableEq

/-- `sock_ctx`. -/
structure SockCtx where
  type : SocketType
  shouldClose : Bool
  sockfd : Int
  serv : Fin maxPorts
  n : Int
  i : Nat

/-- What `socPoll` reports of a socket. -/
structure Revents where
  /-- `POLLHUP`, `POLLERR` or `POLLNVAL` -/
  hangup : Bool
  input : Bool
  deriving DecidableEq

/-- An entry of `poll_fds`, and that of `ctx_ptrs` with the same index. -/
structure SockSlot where
  fd : Int
  events : Nat
  revents : Revents
  ctx : Option CtxId
  deriving DecidableEq

/-- `sock_server`; the slots are those below `nfds`, and `cursor` is where the event loop is. -/
structure SockServer where
  clientsPerServer : Int
  slots : List SockSlot
  ctxs : CtxId → SockCtx
  compactNeeded : Bool
  cursor : Option Nat

/-- What a connection and its callbacks do when a slot is visited. -/
structure VisitResults where
  /-- of `socAccept` -/
  clientSockfd : Int
  /-- of `serv->alloc` -/
  newCtx : Option Nat
  /-- `serv->accept_cb` does not return -1 -/
  accepted : Bool
  /-- `serv->data_cb` does not return -1 -/
  handled : Bool

def noEvents : Revents := ⟨false, false⟩

namespace SockServer

variable (s : SockServer)

def setCtx (c : CtxId) (ctx : SockCtx) : SockServer := { s with ctxs := Function.update s.ctxs c ctx }

/-- The contexts with one client less, if the context is that of a client. -/
def uncount (c : CtxId) : CtxId → SockCtx :=
  if (s.ctxs c).type = .client then
    Function.update s.ctxs (.server (s.ctxs c).serv)
      { s.ctxs (.server (s.ctxs c).serv) with n := (s.ctxs (.server (s.ctxs c).serv)).n - 1 }
  else s.ctxs

/-- `server_close_ctx`. -/
def closeCtx (c : CtxId) : SockServer :=
  { s with
    compactNeeded := true
    slots := s.slots.set (s.ctxs c).i { fd := -1, events := 0, revents := noEvents, ctx := none }
    ctxs := Function.update (s.uncount c) c { s.uncount c c with shouldClose := false, type := .none } }

/-- The slot and the context of a new connection. -/
def addClient (k : Fin maxPorts) (clientSockfd : Int) (j : Nat) : SockServer :=
  { s with
    slots := s.slots ++ [{ fd := clientSockfd, events := pollin, revents := noEvents, ctx := some (.client j) }]
    ctxs := Function.update
      (Function.update s.ctxs (.server k) { s.ctxs (.server k) with n := (s.ctxs (.server k)).n + 1 }) (.client j)
      { type := .client, shouldClose := false, sockfd := clientSockfd, serv := k, n := 0, i := s.slots.length } }

/-- The event loop at a listening socket that has a connection. -/
def acceptAt (k : Fin maxPorts) (out : VisitResults) : SockServer :=
  if out.clientSockfd < 0 ∨ (s.ctxs (.server k)).n = s.clientsPerServer ∨ s.slots.length = maxCtxs then s
  else
    match out.newCtx with
    | none => s
    | some j =>
      if out.accepted then s.addClient k out.clientSockfd j
      else (s.addClient k out.clientSockfd j).closeCtx (.client j)

/-- The event loop at a slot; nothing comes after a NULL in `ctx_ptrs`. -/
def visitAt (i : Nat) (out : VisitResults) : Option SockServer :=
  match s.slots[i]? with
  | none => some s
  | some slot =>
    match slot.ctx with
    | none => none
    | some c =>
      if slot.revents.hangup || (s.ctxs c).shouldClose then some (s.closeCtx c)
      else if slot.revents.input then
        match (s.ctxs c).type, c with
        | .server, .server k => some (s.acceptAt k out)
        | _, _ => if out.handled then some s else some (s.closeCtx c)
      else some s

def setIndex (ctxs : CtxId → SockCtx) (i : Nat) : Option CtxId → CtxId → SockCtx
  | some c => Function.update ctxs c { ctxs c with i := i }
  | none => ctxs

/-- The contexts of some slots are told where they are. -/
def renumber (ctxs : CtxId → SockCtx) (i : Nat) : List SockSlot → CtxId → SockCtx
  | [] => ctxs
  | slot :: slots => renumber (setIndex ctxs i slot.ctx) (i + 1) slots

/-- The slots that `compact` keeps. -/
def kept : List SockSlot := s.slots.filter fun slot => slot.fd ≠ -1

/-- `compact`: the sockets and the contexts move together, the events stay where they are. -/
def compact : SockServer :=
  { s with
    slots := List.zipWith (fun old slot => { old with fd := slot.fd, ctx := slot.ctx }) s.slots s.kept
    ctxs := renumber s.ctxs 0 s.kept
    compactNeeded := false }

/-- `server_bind` with a socket that listens. -/
def bind (sockfd : Int) : SockServer :=
  match Fin.find? fun k => (s.ctxs (.server k)).type = .none with
  | none => s
  | some k =>
    { s with
      slots := s.slots ++ [⟨sockfd, pollin, noEvents, some (.server k)⟩]
      ctxs := Function.update s.ctxs (.server k)
        { s.ctxs (.server k) with type := .server, sockfd := sockfd, n := 0, i := s.slots.length } }

/-- `server_init`. -/
def init (clientsPerServer : Int) : SockServer :=
  ⟨clientsPerServer, [], fun _ => ⟨.none, false, 0, ⟨0, by decide⟩, 0, 0⟩, false, none⟩

end SockServer

/-! ## Rounds -/

/-- What happens to a server that runs: a poll, the visit of a slot, the end of a round, and a request from
elsewhere that a connection be closed. -/
inductive SockInput
  | poll (ready : Bool) (revents : Nat → Revents)
  | visit (out : VisitResults)
  | roundEnd
  | askClose (j : Nat)

/-- What can happen next; `serv->alloc` gives a context that has no connection. -/
def SockServer.Enabled (s : SockServer) : SockInput → Prop
  | .poll _ _ => s.cursor = none
  | .visit out => (∃ i, s.cursor = some i ∧ i < s.slots.length) ∧ ∀ j, out.newCtx = some j → (s.ctxs (.client j)).type = .none
  | .roundEnd => ∃ i, s.cursor = some i ∧ s.slots.length ≤ i
  | .askClose _ => True

/-- `server_run`, step by step. -/
def sockStep (s : SockServer) : SockInput → Option SockServer
  | .poll ready revents =>
    some { s with
      slots := s.slots.mapIdx fun i slot => { slot with revents := revents i }
      cursor := if ready then some 0 else none }
  | .visit out => (s.visitAt (s.cursor.getD 0) out).map fun s' => { s' with cursor := s.cursor.map (· + 1) }
  | .roundEnd => some { if s.compactNeeded then s.compact else s with cursor := none }
  | .askClose j => some (s.setCtx (.client j) { s.ctxs (.client j) with shouldClose := true })

/-- The sockets listen before the server runs. -/
def sockSystem (clientsPerServer : Int) : System SockServer SockInput :=
  .guarded (fun s => ∃ sockfds : List Int, sockfds.length ≤ maxPorts ∧ (∀ fd ∈ sockfds, 0 ≤ fd) ∧
    s = sockfds.foldl SockServer.bind (.init clientsPerServer)) SockServer.Enabled sockStep

/-! ## The bookkeeping -/

namespace CtxId

/-- What a context is, while it has a socket. -/
def kind : CtxId → SocketType
  | .server _ => .server
  | .client _ => .client

end CtxId

namespace SockServer

/-- The slot has a client of the listening socket. -/
def isClientOf (s : SockServer) (k : Fin maxPorts) (slot : SockSlot) : Bool :=
  match slot.ctx with
  | some (.client j) => (s.ctxs (.client j)).serv = k
  | _ => false

/-- A slot with a connection, and a context that knows where it is; or one that has been closed. -/
structure SlotGood (s : SockServer) (i : Nat) (slot : SockSlot) : Prop where
  used : ∀ c, slot.ctx = some c → (s.ctxs c).i = i ∧ slot.fd = (s.ctxs c).sockfd ∧ 0 ≤ slot.fd ∧ (s.ctxs c).type = c.kind
  closed : slot.ctx = none → slot.fd = -1 ∧ s.compactNeeded = true

/-- What holds throughout a walk. -/
structure Inv (s : SockServer) : Prop where
  slot : ∀ i slot, s.slots[i]? = some slot → s.SlotGood i slot
  placed : ∀ c, (s.ctxs c).type ≠ .none → ∃ slot, s.slots[(s.ctxs c).i]? = some slot ∧ slot.ctx = some c
  count : ∀ k, (s.ctxs (.server k)).n = s.slots.countP (s.isClientOf k)
  room : s.slots.length ≤ maxCtxs

variable {s : SockServer}

theorem uncount_of_ne {c c' : CtxId} (h : c' ≠ .server (s.ctxs c).serv) : s.uncount c c' = s.ctxs c' := by
  unfold uncount
  split
  · exact Function.update_of_ne h ..
  · rfl

/-- A count changes, nothing else. -/
theorem uncount_ctxs (s : SockServer) (c c' : CtxId) :
    (s.uncount c c').i = (s.ctxs c').i ∧ (s.uncount c c').sockfd = (s.ctxs c').sockfd ∧
      (s.uncount c c').serv = (s.ctxs c').serv ∧ (s.uncount c c').type = (s.ctxs c').type := by
  by_cases h : c' = .server (s.ctxs c).serv
  · subst h
    unfold uncount
    split
    · rw [Function.update_self]
      exact ⟨rfl, rfl, rfl, rfl⟩
    · exact ⟨rfl, rfl, rfl, rfl⟩
  · rw [uncount_of_ne h]
    exact ⟨rfl, rfl, rfl, rfl⟩

/-- The contexts after a close. -/
theorem closeCtx_ctxs (s : SockServer) (c c' : CtxId) :
    ((s.closeCtx c).ctxs c').i = (s.ctxs c').i ∧ ((s.closeCtx c).ctxs c').sockfd = (s.ctxs c').sockfd ∧
      ((s.closeCtx c).ctxs c').serv = (s.ctxs c').serv ∧
      ((s.closeCtx c).ctxs c').type = (if c' = c then .none else (s.ctxs c').type) := by
  obtain ⟨hi, hfd, hserv, htype⟩ := s.uncount_ctxs c c'
  unfold closeCtx
  by_cases hc : c' = c
  · subst hc
    dsimp only
    rw [Function.update_self, if_pos rfl]
    exact ⟨hi, hfd, hserv, rfl⟩
  · dsimp only
    rw [Function.update_of_ne hc, if_neg hc]
    exact ⟨hi, hfd, hserv, htype⟩

theorem isClientOf_congr {s' : SockServer} (h : ∀ j, (s'.ctxs (.client j)).serv = (s.ctxs (.client j)).serv) :
    s'.isClientOf = s.isClientOf := by
  funext k slot
  unfold isClientOf
  split
  · rw [h]
  · rfl

/-- Closing a connection that has its slot. -/
theorem Inv.closeCtx (h : s.Inv) {c : CtxId} {slot : SockSlot} (hslot : s.slots[(s.ctxs c).i]? = some slot)
    (hc : slot.ctx = some c) : (s.closeCtx c).Inv := by
  have hlt : (s.ctxs c).i < s.slots.length := (List.getElem?_eq_some_iff.mp hslot).1
  have hget : s.slots[(s.ctxs c).i] = slot := (List.getElem?_eq_some_iff.mp hslot).2
  have hkind := ((h.slot _ _ hslot).used c hc).2.2.2
  refine ⟨fun i slot' hslot' => ?_, fun c' hc' => ?_, fun k => ?_, ?_⟩
  · have hset : (s.slots.set (s.ctxs c).i _)[i]? = some slot' := hslot'
    rw [List.getElem?_set] at hset
    split at hset
    · obtain rfl := Option.some.inj hset
      exact ⟨nofun, fun _ => ⟨rfl, rfl⟩⟩
    · rename_i hne
      refine ⟨fun c' hc' => ?_, fun hnone => ⟨((h.slot i slot' hset).closed hnone).1, rfl⟩⟩
      obtain ⟨hi, hfd, hserv, htype⟩ := s.closeCtx_ctxs c c'
      obtain ⟨hi', hfd', hpos, htype'⟩ := (h.slot i slot' hset).used c' hc'
      have hcc : c' ≠ c := by
        rintro rfl
        exact hne hi'
      rw [hi, hfd, htype, if_neg hcc]
      exact ⟨hi', hfd', hpos, htype'⟩
  · obtain ⟨hi, _, _, htype⟩ := s.closeCtx_ctxs c c'
    rw [htype] at hc'
    have hcc : c' ≠ c := by
      rintro rfl
      rw [if_pos rfl] at hc'
      exact hc' rfl
    rw [if_neg hcc] at hc'
    obtain ⟨slot', hslot', hctx⟩ := h.placed c' hc'
    refine ⟨slot', ?_, hctx⟩
    have hne : (s.ctxs c).i ≠ (s.ctxs c').i := by
      intro heq
      rw [heq, hslot'] at hslot
      obtain rfl := Option.some.inj hslot
      rw [hc] at hctx
      exact hcc (Option.some.inj hctx).symm
    rw [hi]
    exact (List.getElem?_set_ne hne).trans hslot'
  · have hsame : (s.closeCtx c).isClientOf = s.isClientOf := isClientOf_congr fun j => (s.closeCtx_ctxs c (.client j)).2.2.1
    have hcount : (s.closeCtx c).slots.countP ((s.closeCtx c).isClientOf k) =
        s.slots.countP (s.isClientOf k) - (if s.isClientOf k slot then 1 else 0) := by
      rw [hsame]
      show (s.slots.set (s.ctxs c).i _).countP (s.isClientOf k) = _
      rw [List.countP_set hlt, hget]
      simp [isClientOf]
    have hpos : s.isClientOf k slot = true → 0 < s.slots.countP (s.isClientOf k) := fun hslot' =>
      List.countP_pos_iff.mpr ⟨slot, List.mem_of_getElem? hslot, hslot'⟩
    rw [hcount]
    have hn : ((s.closeCtx c).ctxs (.server k)).n = (s.uncount c (.server k)).n := by
      unfold SockServer.closeCtx
      dsimp only
      by_cases hck : CtxId.server k = c
      · subst hck
        rw [Function.update_self]
      · rw [Function.update_of_ne hck]
    rw [hn]
    unfold uncount
    cases c with
    | server k' =>
      have hno : s.isClientOf k slot = false := by simp [isClientOf, hc]
      rw [if_neg (by rw [hkind]; exact SocketType.noConfusion), hno, h.count k]
      simp
    | client j =>
      rw [if_pos (by rw [hkind]; rfl)]
      by_cases hk : k = (s.ctxs (.client j)).serv
      · subst hk
        have hyes : s.isClientOf (s.ctxs (.client j)).serv slot = true := by simp [isClientOf, hc]
        have hle := hpos hyes
        rw [Function.update_self, hyes, if_pos rfl]
        dsimp only
        rw [h.count]
        omega
      · have hno : s.isClientOf k slot = false := by
          simp only [isClientOf, hc, decide_eq_false_iff_not]
          exact fun heq => hk heq.symm
        rw [Function.update_of_ne (fun heq => hk (CtxId.server.inj heq)), hno, h.count k]
        simp
  · show (s.slots.set _ _).length ≤ maxCtxs
    rw [List.length_set]
    exact h.room

theorem addClient_client (s : SockServer) (k : Fin maxPorts) (fd : Int) (j j' : Nat) :
    (s.addClient k fd j).ctxs (.client j') =
      if j' = j then { type := .client, shouldClose := false, sockfd := fd, serv := k, n := 0, i := s.slots.length }
      else s.ctxs (.client j') := by
  unfold addClient
  by_cases hj : j' = j
  · subst hj
    rw [if_pos rfl]
    exact Function.update_self ..
  · rw [if_neg hj]
    dsimp only
    rw [Function.update_of_ne (fun heq => hj (CtxId.client.inj heq)), Function.update_of_ne (by exact fun heq => CtxId.noConfusion heq)]

theorem addClient_server (s : SockServer) (k : Fin maxPorts) (fd : Int) (j : Nat) (k' : Fin maxPorts) :
    (s.addClient k fd j).ctxs (.server k') =
      if k' = k then { s.ctxs (.server k) with n := (s.ctxs (.server k)).n + 1 } else s.ctxs (.server k') := by
  unfold addClient
  dsimp only
  rw [Function.update_of_ne (by exact fun heq => CtxId.noConfusion heq)]
  by_cases hk : k' = k
  · subst hk
    rw [if_pos rfl, Function.update_self]
  · rw [if_neg hk, Function.update_of_ne (fun heq => hk (CtxId.server.inj heq))]

/-- The context of another connection stays as it was, but for a count. -/
theorem addClient_other (s : SockServer) (k : Fin maxPorts) (fd : Int) (j : Nat) {c : CtxId} (hc : c ≠ .client j) :
    ((s.addClient k fd j).ctxs c).i = (s.ctxs c).i ∧ ((s.addClient k fd j).ctxs c).sockfd = (s.ctxs c).sockfd ∧
      ((s.addClient k fd j).ctxs c).type = (s.ctxs c).type := by
  cases c with
  | server k' =>
    rw [addClient_server]
    split
    · rename_i hk
      subst hk
      exact ⟨rfl, rfl, rfl⟩
    · exact ⟨rfl, rfl, rfl⟩
  | client j' =>
    rw [addClient_client, if_neg (fun heq => hc (congrArg CtxId.client heq))]
    exact ⟨rfl, rfl, rfl⟩

/-- A new connection, for a context that has none. -/
theorem Inv.addClient (h : s.Inv) {k : Fin maxPorts} {fd : Int} {j : Nat} (hfd : 0 ≤ fd) (hj : (s.ctxs (.client j)).type = .none)
    (hroom : s.slots.length ≠ maxCtxs) : (s.addClient k fd j).Inv := by
  have hnot : ∀ {i : Nat} {slot : SockSlot}, s.slots[i]? = some slot → slot.ctx ≠ some (.client j) := by
    intro i slot hslot hc
    have hkind := ((h.slot i slot hslot).used _ hc).2.2.2
    rw [hj] at hkind
    cases hkind
  refine ⟨fun i slot hslot => ?_, fun c hc => ?_, fun k' => ?_, ?_⟩
  · have hslot' : (s.slots ++ [_])[i]? = some slot := hslot
    rw [List.getElem?_append] at hslot'
    split at hslot'
    · refine ⟨fun c hc => ?_, fun hnone => (h.slot i slot hslot').closed hnone⟩
      obtain ⟨hi, hsockfd, htype⟩ := s.addClient_other k fd j (c := c) (by rintro rfl; exact hnot hslot' hc)
      rw [hi, hsockfd, htype]
      exact (h.slot i slot hslot').used c hc
    · obtain ⟨hi, rfl⟩ : i - s.slots.length = 0 ∧ _ = slot := by
        rw [List.getElem?_singleton] at hslot'
        split at hslot'
        · exact ⟨by assumption, Option.some.inj hslot'⟩
        · cases hslot'
      refine ⟨fun c hc => ?_, fun hnone => by cases hnone⟩
      obtain rfl := Option.some.inj hc
      rw [addClient_client, if_pos rfl]
      exact ⟨by simp only; omega, rfl, hfd, rfl⟩
  · by_cases hcj : c = .client j
    · subst hcj
      refine ⟨{ fd := fd, events := pollin, revents := noEvents, ctx := some (.client j) }, ?_, rfl⟩
      rw [addClient_client, if_pos rfl]
      exact List.getElem?_concat_length
    · obtain ⟨hi, _, htype⟩ := s.addClient_other k fd j hcj
      rw [htype] at hc
      obtain ⟨slot, hslot, hctx⟩ := h.placed c hc
      refine ⟨slot, ?_, hctx⟩
      rw [hi]
      exact (List.getElem?_append_left (List.getElem?_eq_some_iff.mp hslot).1).trans hslot
  · have hold : s.slots.countP ((s.addClient k fd j).isClientOf k') = s.slots.countP (s.isClientOf k') := by
      apply List.countP_congr
      intro slot hslot
      obtain ⟨i, hi⟩ := List.getElem?_of_mem hslot
      unfold isClientOf
      split
      · rename_i j' hj'
        rw [addClient_client, if_neg (by rintro rfl; exact hnot hi hj')]
      · rfl
    have hcount : (s.addClient k fd j).slots.countP ((s.addClient k fd j).isClientOf k') =
        s.slots.countP (s.isClientOf k') + (if k' = k then 1 else 0) := by
      show (s.slots ++ [_]).countP _ = _
      rw [List.countP_append, hold, List.countP_singleton]
      congr 1
      simp [isClientOf, addClient_client, eq_comm]
    rw [hcount, addClient_server]
    by_cases hk : k' = k
    · subst hk
      rw [if_pos rfl, if_pos rfl]
      push_cast
      exact congrArg (· + 1) (h.count k')
    · rw [if_neg hk, if_neg hk]
      exact h.count k'
  · show (s.slots ++ [_]).length ≤ maxCtxs
    rw [List.length_append, List.length_singleton]
    exact Nat.lt_of_le_of_ne h.room hroom

/-! ### Compaction -/

theorem setIndex_ctxs (ctxs : CtxId → SockCtx) (i : Nat) (ctx : Option CtxId) (c : CtxId) :
    (setIndex ctxs i ctx c).sockfd = (ctxs c).sockfd ∧ (setIndex ctxs i ctx c).serv = (ctxs c).serv ∧
      (setIndex ctxs i ctx c).type = (ctxs c).type ∧ (setIndex ctxs i ctx c).n = (ctxs c).n ∧
      (setIndex ctxs i ctx c).i = (if some c = ctx then i else (ctxs c).i) := by
  rcases ctx with _ | c'
  · exact ⟨rfl, rfl, rfl, rfl, rfl⟩
  · have hset : setIndex ctxs i (some c') = Function.update ctxs c' { ctxs c' with i := i } := rfl
    rw [hset]
    by_cases hc : c = c'
    · subst hc
      rw [Function.update_self, if_pos rfl]
      exact ⟨rfl, rfl, rfl, rfl, rfl⟩
    · rw [Function.update_of_ne hc, if_neg (fun heq => hc (Option.some.inj heq))]
      exact ⟨rfl, rfl, rfl, rfl, rfl⟩

/-- Only where a context is changes. -/
theorem renumber_ctxs (ctxs : CtxId → SockCtx) (i : Nat) (slots : List SockSlot) (c : CtxId) :
    (renumber ctxs i slots c).sockfd = (ctxs c).sockfd ∧ (renumber ctxs i slots c).serv = (ctxs c).serv ∧
      (renumber ctxs i slots c).type = (ctxs c).type ∧ (renumber ctxs i slots c).n = (ctxs c).n := by
  induction slots generalizing ctxs i with
  | nil => exact ⟨rfl, rfl, rfl, rfl⟩
  | cons slot slots ih =>
    obtain ⟨hfd, hserv, htype, hn, _⟩ := setIndex_ctxs ctxs i slot.ctx c
    obtain ⟨hfd', hserv', htype', hn'⟩ := ih (setIndex ctxs i slot.ctx) (i + 1)
    exact ⟨hfd'.trans hfd, hserv'.trans hserv, htype'.trans htype, hn'.trans hn⟩

theorem renumber_of_notMem (ctxs : CtxId → SockCtx) (i : Nat) {slots : List SockSlot} {c : CtxId}
    (h : some c ∉ slots.map (·.ctx)) : (renumber ctxs i slots c).i = (ctxs c).i := by
  induction slots generalizing ctxs i with
  | nil => rfl
  | cons slot slots ih =>
    rw [List.map_cons, List.mem_cons, not_or] at h
    have hset := (setIndex_ctxs ctxs i slot.ctx c).2.2.2.2
    rw [if_neg h.1] at hset
    exact (ih _ _ h.2).trans hset

/-- Every context has the index of its slot. -/
theorem renumber_i (ctxs : CtxId → SockCtx) (i : Nat) {slots : List SockSlot} (hdup : (slots.map (·.ctx)).Nodup)
    {j : Nat} {slot : SockSlot} {c : CtxId} (hslot : slots[j]? = some slot) (hc : slot.ctx = some c) :
    (renumber ctxs i slots c).i = i + j := by
  induction slots generalizing ctxs i j with
  | nil => cases hslot
  | cons slot' slots ih =>
    rw [List.map_cons, List.nodup_cons] at hdup
    cases j with
    | zero =>
      obtain rfl := Option.some.inj hslot
      have hset := (setIndex_ctxs ctxs i slot'.ctx c).2.2.2.2
      rw [if_pos hc.symm] at hset
      exact (renumber_of_notMem (setIndex ctxs i slot'.ctx) (i + 1) (hc ▸ hdup.1)).trans hset
    | succ j =>
      have hnext := ih (setIndex ctxs i slot'.ctx) (i + 1) hdup.2 hslot
      unfold renumber
      omega

/-- The slots that are kept are those of a connection. -/
theorem Inv.open_iff (h : s.Inv) {slot : SockSlot} (hslot : slot ∈ s.slots) : slot.fd ≠ -1 ↔ slot.ctx ≠ none := by
  obtain ⟨i, hi⟩ := List.getElem?_of_mem hslot
  constructor
  · intro hfd hnone
    exact hfd ((h.slot i slot hi).closed hnone).1
  · intro hctx
    obtain ⟨c, hc⟩ := Option.ne_none_iff_exists'.mp hctx
    have hpos := ((h.slot i slot hi).used c hc).2.2.1
    omega

theorem Inv.mem_kept (h : s.Inv) {slot : SockSlot} : slot ∈ s.kept ↔ slot ∈ s.slots ∧ slot.ctx ≠ none := by
  unfold kept
  rw [List.mem_filter]
  constructor
  · rintro ⟨hslot, hfd⟩
    exact ⟨hslot, (h.open_iff hslot).mp (of_decide_eq_true hfd)⟩
  · rintro ⟨hslot, hctx⟩
    exact ⟨hslot, decide_eq_true ((h.open_iff hslot).mpr hctx)⟩

/-- No two slots have the same context. -/
theorem Inv.nodup_kept (h : s.Inv) : (s.kept.map (·.ctx)).Nodup := by
  have hslots : s.slots.Pairwise fun slot slot' => slot.ctx ≠ none → slot.ctx ≠ slot'.ctx := by
    rw [List.pairwise_iff_getElem]
    intro i j hi hj hij hctx heq
    obtain ⟨c, hc⟩ := Option.ne_none_iff_exists'.mp hctx
    have hi' := ((h.slot i _ (List.getElem?_eq_getElem hi)).used c hc).1
    have hj' := ((h.slot j _ (List.getElem?_eq_getElem hj)).used c (heq ▸ hc)).1
    omega
  rw [List.Nodup, List.pairwise_map]
  exact (hslots.filter _).imp_of_mem fun hslot _ hne => hne (h.mem_kept.mp hslot).2

theorem compact_length (s : SockServer) : s.compact.slots.length = s.kept.length := by
  show (List.zipWith _ s.slots s.kept).length = _
  rw [List.length_zipWith]
  exact Nat.min_eq_right (List.length_filter_le _ _)

/-- A slot after compaction: the connection that is kept there, with the events of the slot that was there. -/
theorem compact_slot (s : SockServer) {i : Nat} {slot : SockSlot} (h : s.compact.slots[i]? = some slot) :
    ∃ old new, s.slots[i]? = some old ∧ s.kept[i]? = some new ∧ slot = { old with fd := new.fd, ctx := new.ctx } := by
  rw [show s.compact.slots = List.zipWith _ s.slots s.kept from rfl, List.getElem?_zipWith] at h
  split at h
  · rename_i old new hold hnew
    exact ⟨old, new, hold, hnew, (Option.some.inj h).symm⟩
  · cases h

/-- The open connections are what remains, in their old order. -/
theorem compact_ctx (s : SockServer) : s.compact.slots.map (·.ctx) = s.kept.map (·.ctx) := by
  apply List.ext_getElem?
  intro i
  rw [List.getElem?_map, List.getElem?_map]
  rcases hnew : s.compact.slots[i]? with _ | slot
  · rw [List.getElem?_eq_none_iff, compact_length, ← List.getElem?_eq_none_iff] at hnew
    rw [hnew]
  · obtain ⟨old, new, _, hkept, rfl⟩ := s.compact_slot hnew
    rw [hkept]
    rfl

/-- Clients are counted by their contexts. -/
theorem countP_isClientOf (s : SockServer) (k : Fin maxPorts) (slots : List SockSlot) :
    slots.countP (s.isClientOf k) =
      (slots.map (·.ctx)).countP fun ctx => s.isClientOf k { fd := 0, events := 0, revents := noEvents, ctx := ctx } := by
  rw [List.countP_map]
  rfl

theorem Inv.compact (h : s.Inv) : s.compact.Inv ∧ ∀ slot ∈ s.compact.slots, slot.ctx ≠ none := by
  have hkeeps : ∀ {i : Nat} {new : SockSlot}, s.kept[i]? = some new →
      ∃ c, new.ctx = some c ∧ new.fd = (s.ctxs c).sockfd ∧ 0 ≤ new.fd ∧ (s.ctxs c).type = c.kind := by
    intro i new hnew
    obtain ⟨hmem, hctx⟩ := h.mem_kept.mp (List.mem_of_getElem? hnew)
    obtain ⟨c, hc⟩ := Option.ne_none_iff_exists'.mp hctx
    obtain ⟨j, hj⟩ := List.getElem?_of_mem hmem
    obtain ⟨_, hfd, hpos, htype⟩ := (h.slot j new hj).used c hc
    exact ⟨c, hc, hfd, hpos, htype⟩
  refine ⟨⟨fun i slot hslot => ?_, fun c hc => ?_, fun k => ?_, ?_⟩, fun slot hslot => ?_⟩
  · obtain ⟨old, new, _, hnew, rfl⟩ := s.compact_slot hslot
    obtain ⟨c, hc, hfd, hpos, htype⟩ := hkeeps hnew
    obtain ⟨hfd', _, htype', _⟩ := renumber_ctxs s.ctxs 0 s.kept c
    refine ⟨fun c' hc' => ?_, fun hnone => ?_⟩
    · obtain rfl := Option.some.inj (hc.symm.trans hc')
      refine ⟨?_, hfd.trans hfd'.symm, hpos, htype'.trans htype⟩
      exact (renumber_i s.ctxs 0 h.nodup_kept hnew hc).trans (Nat.zero_add i)
    · exact absurd (hc.symm.trans hnone) (Option.some_ne_none c)
  · have htype : (s.ctxs c).type ≠ .none := by
      rw [← (renumber_ctxs s.ctxs 0 s.kept c).2.2.1]
      exact hc
    obtain ⟨slot, hslot, hctx⟩ := h.placed c htype
    obtain ⟨i, hi⟩ := List.getElem?_of_mem
      (h.mem_kept.mpr ⟨List.mem_of_getElem? hslot, by rw [hctx]; exact Option.some_ne_none c⟩)
    have hplace : (s.compact.ctxs c).i = i := (renumber_i s.ctxs 0 h.nodup_kept hi hctx).trans (Nat.zero_add i)
    have hlt : i < s.compact.slots.length := by
      rw [compact_length]
      exact (List.getElem?_eq_some_iff.mp hi).1
    refine ⟨s.compact.slots[i], ?_, ?_⟩
    · rw [hplace]
      exact List.getElem?_eq_getElem hlt
    · obtain ⟨old, new, _, hnew, heq⟩ := s.compact_slot (List.getElem?_eq_getElem hlt)
      rw [hi] at hnew
      obtain rfl := Option.some.inj hnew
      rw [heq]
      exact hctx
  · have hserv : s.compact.isClientOf = s.isClientOf := isClientOf_congr fun j => (renumber_ctxs s.ctxs 0 s.kept (.client j)).2.1
    have hn : (s.compact.ctxs (.server k)).n = (s.ctxs (.server k)).n := (renumber_ctxs s.ctxs 0 s.kept (.server k)).2.2.2
    rw [hn, h.count k, hserv, s.countP_isClientOf k s.compact.slots, s.compact_ctx, ← s.countP_isClientOf k s.kept, kept,
      List.countP_filter]
    congr 1
    apply List.countP_congr
    intro slot hslot
    constructor
    · intro hclient
      have hctx : slot.ctx ≠ none := by
        intro hnone
        simp [isClientOf, hnone] at hclient
      simp [hclient, (h.open_iff hslot).mpr hctx]
    · intro hboth
      exact (Bool.and_eq_true_iff.mp hboth).1
  · rw [compact_length]
    exact (List.length_filter_le _ _).trans h.room
  · obtain ⟨i, hi⟩ := List.getElem?_of_mem hslot
    obtain ⟨old, new, _, hnew, rfl⟩ := s.compact_slot hi
    obtain ⟨c, hc, _⟩ := hkeeps hnew
    show new.ctx ≠ none
    rw [hc]
    exact Option.some_ne_none c

/-! ### The listening sockets -/

/-- What holds before the server runs: every slot is that of a listening socket. -/
structure Bound (s : SockServer) : Prop extends s.Inv where
  listens : ∀ slot ∈ s.slots, ∃ k, slot.ctx = some (.server k)
  polled : ∀ slot ∈ s.slots, slot.events = pollin
  idle : s.cursor = none

theorem bound_init (clientsPerServer : Int) : (init clientsPerServer).Bound := by
  refine ⟨⟨?_, ?_, ?_, ?_⟩, ?_, ?_, rfl⟩
  · intro i slot hslot
    cases hslot
  · intro c hc
    exact absurd rfl hc
  · intro k
    rfl
  · exact Nat.zero_le _
  · intro slot hslot
    cases hslot
  · intro slot hslot
    cases hslot

theorem Bound.bind (h : s.Bound) {fd : Int} (hfd : 0 ≤ fd) (hroom : s.slots.length < maxCtxs) :
    (s.bind fd).Bound ∧ (s.bind fd).slots.length ≤ s.slots.length + 1 := by
  unfold SockServer.bind
  split
  · exact ⟨h, Nat.le_succ _⟩
  · rename_i k hk
    have hfree : (s.ctxs (.server k)).type = .none := by
      have hfound := (Fin.find?_eq_some_iff.mp hk).1
      exact of_decide_eq_true hfound
    have hother : ∀ {i : Nat} {slot : SockSlot}, s.slots[i]? = some slot → slot.ctx ≠ some (.server k) := by
      intro i slot hslot hc
      have hkind := ((h.slot i slot hslot).used _ hc).2.2.2
      rw [hfree] at hkind
      cases hkind
    have hlast : ∀ {i : Nat} {new slot : SockSlot}, (s.slots ++ [new])[i]? = some slot →
        s.slots[i]? = some slot ∨ i = s.slots.length ∧ slot = new := by
      intro i new slot hslot
      rw [List.getElem?_append] at hslot
      split at hslot
      · exact Or.inl hslot
      · rw [List.getElem?_singleton] at hslot
        split at hslot
        · exact Or.inr ⟨by omega, (Option.some.inj hslot).symm⟩
        · cases hslot
    refine ⟨⟨⟨fun i slot hslot => ?_, fun c hc => ?_, fun k' => ?_, ?_⟩, ?_, ?_, h.idle⟩, ?_⟩
    · rcases hlast hslot with hold | ⟨rfl, rfl⟩
      · refine ⟨fun c hc => ?_, (h.slot i slot hold).closed⟩
        dsimp only
        rw [Function.update_of_ne (by rintro rfl; exact hother hold hc)]
        exact (h.slot i slot hold).used c hc
      · refine ⟨fun c hc => ?_, nofun⟩
        obtain rfl := Option.some.inj hc
        dsimp only
        rw [Function.update_self]
        exact ⟨rfl, rfl, hfd, rfl⟩
    · dsimp only at hc ⊢
      by_cases hck : c = .server k
      · subst hck
        rw [Function.update_self]
        exact ⟨⟨fd, pollin, noEvents, some (.server k)⟩, List.getElem?_concat_length, rfl⟩
      · rw [Function.update_of_ne hck] at hc ⊢
        obtain ⟨slot, hslot, hctx⟩ := h.placed c hc
        exact ⟨slot, (List.getElem?_append_left (List.getElem?_eq_some_iff.mp hslot).1).trans hslot, hctx⟩
    · have hnone : ∀ slots : List SockSlot, (∀ slot ∈ slots, ∃ k, slot.ctx = some (.server k)) →
          ∀ s : SockServer, slots.countP (s.isClientOf k') = 0 := by
        intro slots hslots s
        rw [List.countP_eq_zero]
        intro slot hslot
        obtain ⟨k'', hk''⟩ := hslots slot hslot
        simp [isClientOf, hk'']
      rw [hnone _ (by
        intro slot hslot
        rcases List.mem_append.mp hslot with hold | hnew
        · exact h.listens slot hold
        · exact ⟨k, congrArg (·.ctx) (List.mem_singleton.mp hnew)⟩)]
      dsimp only
      by_cases hk' : k' = k
      · subst hk'
        rw [Function.update_self]
        rfl
      · rw [Function.update_of_ne (fun heq => hk' (CtxId.server.inj heq)), h.count k', hnone _ h.listens]
    · show (s.slots ++ [_]).length ≤ maxCtxs
      rw [List.length_append, List.length_singleton]
      exact hroom
    · intro slot hslot
      rcases List.mem_append.mp hslot with hold | hnew
      · exact h.listens slot hold
      · exact ⟨k, congrArg (·.ctx) (List.mem_singleton.mp hnew)⟩
    · intro slot hslot
      rcases List.mem_append.mp hslot with hold | hnew
      · exact h.polled slot hold
      · exact congrArg (·.events) (List.mem_singleton.mp hnew)
    · show (s.slots ++ [_]).length ≤ _
      rw [List.length_append, List.length_singleton]

/-- As many listening sockets as there are ports. -/
theorem Bound.foldl_bind : ∀ {sockfds : List Int} {s : SockServer}, s.Bound →
    s.slots.length + sockfds.length ≤ maxCtxs → (∀ fd ∈ sockfds, 0 ≤ fd) → (sockfds.foldl SockServer.bind s).Bound
  | [], _, h, _, _ => h
  | fd :: sockfds, s, h, hroom, hfds => by
    rw [List.length_cons] at hroom
    obtain ⟨hbound, hlen⟩ := h.bind (hfds fd (List.mem_cons_self ..)) (by omega)
    exact hbound.foldl_bind (by omega) fun fd' hfd' => hfds fd' (List.mem_cons_of_mem _ hfd')

/-! ### A walk over the slots -/

/-- A connection is taken at a slot, and `accept_cb` returns -1 for it. -/
structure RefusesAt (s : SockServer) (i : Nat) (out : VisitResults) (slot : SockSlot) (k : Fin maxPorts) (j : Nat) : Prop where
  found : s.slots[i]? = some slot
  ctx : slot.ctx = some (.server k)
  keeps : (slot.revents.hangup || (s.ctxs (.server k)).shouldClose) = false
  input : slot.revents.input = true
  listens : (s.ctxs (.server k)).type = .server
  takes : ¬(out.clientSockfd < 0 ∨ (s.ctxs (.server k)).n = s.clientsPerServer ∨ s.slots.length = maxCtxs)
  alloc : out.newCtx = some j
  refused : out.accepted = false

/-- What the event loop relies on: the slots it has not come to are those of connections. -/
structure Walk (s : SockServer) : Prop extends s.Inv where
  ahead : ∀ i slot, s.cursor.getD 0 ≤ i → s.slots[i]? = some slot → slot.ctx ≠ none

/-- The sockets are polled for input. -/
def Polled (s : SockServer) : Prop := ∀ slot ∈ s.slots, slot.ctx ≠ none → slot.events = pollin

/-- What the visit of a slot leaves alone, and what it keeps. -/
structure Visited (s : SockServer) (i : Nat) (s' : SockServer) : Prop where
  inv : s'.Inv
  ahead : ∀ j slot, i < j → s'.slots[j]? = some slot → s.slots[j]? = some slot ∨ slot.ctx ≠ none
  polled : s.Polled → s'.Polled
  cursor : s'.cursor = s.cursor

theorem Inv.visited (h : s.Inv) (i : Nat) : s.Visited i s := by
  constructor
  · exact h
  · intro j slot _ hslot
    exact Or.inl hslot
  · exact id
  · rfl

theorem Inv.visited_closeCtx (h : s.Inv) {i : Nat} {slot : SockSlot} {c : CtxId} (hslot : s.slots[i]? = some slot)
    (hc : slot.ctx = some c) : s.Visited i (s.closeCtx c) := by
  have hi : (s.ctxs c).i = i := ((h.slot i slot hslot).used c hc).1
  constructor
  · exact h.closeCtx (hi ▸ hslot) hc
  · intro j slot' hij hslot'
    left
    have hne : (s.ctxs c).i ≠ j := by omega
    exact (List.getElem?_set_ne hne).symm.trans hslot'
  · intro hpolled slot' hmem hctx
    rcases List.mem_or_eq_of_mem_set hmem with hold | rfl
    · exact hpolled slot' hold hctx
    · exact absurd rfl hctx
  · rfl

theorem Inv.visited_addClient (h : s.Inv) (i : Nat) {k : Fin maxPorts} {fd : Int} {j : Nat} (hfd : 0 ≤ fd)
    (hj : (s.ctxs (.client j)).type = .none) (hroom : s.slots.length ≠ maxCtxs) : s.Visited i (s.addClient k fd j) := by
  have hmem : ∀ slot ∈ (s.addClient k fd j).slots, slot ∈ s.slots ∨ slot.ctx = some (.client j) ∧ slot.events = pollin := by
    intro slot hslot
    rcases List.mem_append.mp hslot with hold | hnew
    · exact Or.inl hold
    · obtain rfl := List.mem_singleton.mp hnew
      exact Or.inr ⟨rfl, rfl⟩
  constructor
  · exact h.addClient hfd hj hroom
  · intro i' slot _ hslot
    have hslot' : (s.slots ++ [_])[i']? = some slot := hslot
    rw [List.getElem?_append] at hslot'
    split at hslot'
    · exact Or.inl hslot'
    · obtain rfl := List.mem_singleton.mp (List.mem_of_getElem? hslot')
      exact Or.inr (Option.some_ne_none _)
  · intro hpolled slot hslot hctx
    rcases hmem slot hslot with hold | ⟨_, hevents⟩
    · exact hpolled slot hold hctx
    · exact hevents
  · rfl

/-- A visit where a connection is, unless a new one is refused there. -/
theorem Inv.visitAt (h : s.Inv) {i : Nat} {slot : SockSlot} {out : VisitResults} (hslot : s.slots[i]? = some slot)
    (hctx : slot.ctx ≠ none) (hfree : ∀ j, out.newCtx = some j → (s.ctxs (.client j)).type = .none)
    (hok : ∀ slot k j, ¬s.RefusesAt i out slot k j) : ∃ s', s.visitAt i out = some s' ∧ s.Visited i s' := by
  obtain ⟨c, hc⟩ := Option.ne_none_iff_exists'.mp hctx
  have hclose := h.visited_closeCtx hslot hc
  have hdata : ∃ s', (if out.handled then some s else some (s.closeCtx c)) = some s' ∧ s.Visited i s' := by
    split
    · exact ⟨s, rfl, h.visited i⟩
    · exact ⟨_, rfl, hclose⟩
  unfold SockServer.visitAt
  rw [hslot]
  dsimp only
  rw [hc]
  dsimp only
  split
  · exact ⟨_, rfl, hclose⟩
  · rename_i hkeeps
    split
    · rename_i hinput
      split
      · rename_i k htype
        refine ⟨_, rfl, ?_⟩
        unfold acceptAt
        split
        · exact h.visited i
        · rename_i htakes
          split
          · exact h.visited i
          · rename_i j hj
            split
            · rw [not_or, not_or] at htakes
              exact h.visited_addClient i (by omega) (hfree j hj) htakes.2.2
            · rename_i hrefused
              exact absurd ⟨hslot, hc, by simpa using hkeeps, hinput, htype, htakes, hj, by simpa using hrefused⟩ (hok slot k j)
      · exact hdata
    · exact ⟨s, rfl, h.visited i⟩

/-- A poll changes what the sockets report, a request what a context is asked. -/
theorem Inv.congr (h : s.Inv) {s' : SockServer} (f : Nat → SockSlot → Revents)
    (hslots : s'.slots = s.slots.mapIdx fun i slot => { slot with revents := f i slot })
    (hctxs : ∀ c, (s'.ctxs c).type = (s.ctxs c).type ∧ (s'.ctxs c).sockfd = (s.ctxs c).sockfd ∧
      (s'.ctxs c).serv = (s.ctxs c).serv ∧ (s'.ctxs c).n = (s.ctxs c).n ∧ (s'.ctxs c).i = (s.ctxs c).i)
    (hcompact : s'.compactNeeded = s.compactNeeded) : s'.Inv := by
  have hget : ∀ i, s'.slots[i]? = (s.slots[i]?).map fun slot : SockSlot => { slot with revents := f i slot } := fun i => by
    rw [hslots, List.getElem?_mapIdx]
  have hmap : s'.slots.map (·.ctx) = s.slots.map (·.ctx) := by
    apply List.ext_getElem?
    intro i
    rw [List.getElem?_map, List.getElem?_map, hget, Option.map_map]
    rfl
  constructor
  · intro i slot hslot
    rw [hget] at hslot
    obtain ⟨old, hold, rfl⟩ := Option.map_eq_some_iff.mp hslot
    constructor
    · intro c hc
      obtain ⟨htype, hfd, _, _, hi⟩ := hctxs c
      rw [htype, hfd, hi]
      exact (h.slot i old hold).used c hc
    · intro hnone
      rw [hcompact]
      exact (h.slot i old hold).closed hnone
  · intro c hc
    obtain ⟨htype, _, _, _, hi⟩ := hctxs c
    rw [htype] at hc
    obtain ⟨slot, hslot, hctx⟩ := h.placed c hc
    refine ⟨{ slot with revents := f (s.ctxs c).i slot }, ?_, hctx⟩
    rw [hi, hget, hslot]
    rfl
  · intro k
    have hclient : s'.isClientOf = s.isClientOf := isClientOf_congr fun j => (hctxs (.client j)).2.2.1
    rw [(hctxs (.server k)).2.2.2.1, h.count k, hclient, s.countP_isClientOf, s.countP_isClientOf, hmap]
  · rw [hslots, List.length_mapIdx]
    exact h.room

theorem Walk.poll (h : s.Walk) (ready : Bool) (revents : Nat → Revents) (hcursor : s.cursor = none) :
    Walk { s with
      slots := s.slots.mapIdx fun i slot => { slot with revents := revents i }
      cursor := if ready then some 0 else none } := by
  refine ⟨h.toInv.congr (fun i _ => revents i) rfl (fun c => ⟨rfl, rfl, rfl, rfl, rfl⟩) rfl, ?_⟩
  intro i slot _ hslot
  dsimp only at hslot
  rw [List.getElem?_mapIdx] at hslot
  obtain ⟨old, hold, rfl⟩ := Option.map_eq_some_iff.mp hslot
  exact h.ahead i old (by rw [hcursor]; exact Nat.zero_le i) hold

theorem Walk.askClose (h : s.Walk) (j : Nat) :
    Walk (s.setCtx (.client j) { s.ctxs (.client j) with shouldClose := true }) := by
  refine ⟨h.toInv.congr (fun _ slot => slot.revents) ?_ ?_ rfl, h.ahead⟩
  · apply List.ext_getElem?
    intro i
    rw [List.getElem?_mapIdx]
    show s.slots[i]? = _
    cases s.slots[i]? <;> rfl
  · intro c
    show (Function.update s.ctxs _ _ c).type = _ ∧ (Function.update s.ctxs _ _ c).sockfd = _ ∧
      (Function.update s.ctxs _ _ c).serv = _ ∧ (Function.update s.ctxs _ _ c).n = _ ∧ (Function.update s.ctxs _ _ c).i = _
    by_cases hc : c = .client j
    · subst hc
      rw [Function.update_self]
      exact ⟨rfl, rfl, rfl, rfl, rfl⟩
    · rw [Function.update_of_ne hc]
      exact ⟨rfl, rfl, rfl, rfl, rfl⟩

/-- The end of a round leaves the open connections, in their old order. -/
theorem Inv.roundEnd (h : s.Inv) :
    Walk { if s.compactNeeded then s.compact else s with cursor := none } ∧
      (if s.compactNeeded then s.compact else s).slots.map (·.ctx) = (s.slots.map (·.ctx)).filter (·.isSome) := by
  have hopen : ∀ {s : SockServer}, (∀ slot ∈ s.slots, slot.ctx ≠ none) → s.Inv → Walk { s with cursor := none } := by
    intro s hall hinv
    exact ⟨⟨fun i slot hslot => ⟨(hinv.slot i slot hslot).used, (hinv.slot i slot hslot).closed⟩, hinv.placed, hinv.count, hinv.room⟩,
      fun i slot _ hslot => hall slot (List.mem_of_getElem? hslot)⟩
  by_cases hcompact : s.compactNeeded = true
  · rw [if_pos hcompact]
    obtain ⟨hinv, hall⟩ := h.compact
    refine ⟨hopen hall hinv, ?_⟩
    rw [compact_ctx, kept, List.filter_map]
    congr 1
    apply List.filter_congr
    intro slot hslot
    rw [Function.comp_apply, Bool.eq_iff_iff, decide_eq_true_iff]
    exact (h.open_iff hslot).trans Option.isSome_iff_ne_none.symm
  · rw [if_neg hcompact]
    have hall : ∀ slot ∈ s.slots, slot.ctx ≠ none := by
      intro slot hslot hnone
      obtain ⟨i, hi⟩ := List.getElem?_of_mem hslot
      exact hcompact ((h.slot i slot hi).closed hnone).2
    refine ⟨hopen hall h, (List.filter_eq_self.mpr ?_).symm⟩
    intro ctx hctx
    obtain ⟨slot, hslot, rfl⟩ := List.mem_map.mp hctx
    exact Option.isSome_iff_ne_none.mpr (hall slot hslot)

/-- Compaction leaves the events right when nothing moves. -/
theorem Inv.polled_compact (h : s.Inv) (hpolled : s.Polled)
    (hlast : s.slots.Pairwise fun slot slot' => slot.fd = -1 → slot'.fd = -1) : s.compact.Polled := by
  intro slot hslot _
  obtain ⟨i, hi⟩ := List.getElem?_of_mem hslot
  obtain ⟨old, new, hold, hnew, rfl⟩ := s.compact_slot hi
  have hlt : i < s.kept.length := (List.getElem?_eq_some_iff.mp hnew).1
  refine hpolled old (List.mem_of_getElem? hold) ?_
  rw [← h.open_iff (List.mem_of_getElem? hold)]
  intro hclosed
  -- everything from this slot on is closed, so only the slots before it are kept
  have hdrop : (s.slots.drop i).filter (fun slot => slot.fd ≠ -1) = [] := by
    rw [List.filter_eq_nil_iff]
    intro slot' hslot'
    have hcons : s.slots.drop i = old :: s.slots.drop (i + 1) := by
      obtain ⟨hi', rfl⟩ := List.getElem?_eq_some_iff.mp hold
      exact List.drop_eq_getElem_cons hi'
    rw [hcons, List.mem_cons] at hslot'
    rcases hslot' with rfl | hslot'
    · simp [hclosed]
    · have hpair := hlast.sublist (List.drop_sublist i s.slots)
      rw [hcons, List.pairwise_cons] at hpair
      simp [hpair.1 slot' hslot' hclosed]
  have hkept : s.kept = (s.slots.take i).filter (fun slot => slot.fd ≠ -1) := by
    rw [kept]
    nth_rewrite 1 [← List.take_append_drop i s.slots]
    rw [List.filter_append, hdrop, List.append_nil]
  have hle : s.kept.length ≤ i := by
    rw [hkept]
    exact (List.length_filter_le _ _).trans (List.length_take_le i _)
  omega

end SockServer

open SockServer

/-- A step that does not refuse a new connection. -/
def Accepts (s : SockServer) : SockInput → Prop
  | .visit out => ∀ i slot k j, s.cursor = some i → ¬s.RefusesAt i out slot k j
  | _ => True

/-- A step after which no open connection has moved. -/
def Settled (s : SockServer) : SockInput → Prop
  | .roundEnd => s.slots.Pairwise fun slot slot' => slot.fd = -1 → slot'.fd = -1
  | _ => True

theorem walk_step {s s' : SockServer} {input : SockInput} (h : s.Walk) (hok : Accepts s input)
    (henabled : s.Enabled input) (hstep : sockStep s input = some s') :
    s'.Walk ∧ (s.Polled → Settled s input → s'.Polled) := by
  cases input with
  | poll ready revents =>
    obtain rfl := Option.some.inj hstep
    refine ⟨h.poll ready revents henabled, fun hpolled _ slot hslot hctx => ?_⟩
    obtain ⟨i, hi⟩ := List.getElem?_of_mem hslot
    dsimp only at hi
    rw [List.getElem?_mapIdx] at hi
    obtain ⟨old, hold, rfl⟩ := Option.map_eq_some_iff.mp hi
    exact hpolled old (List.mem_of_getElem? hold) hctx
  | visit out =>
    obtain ⟨⟨i, hcursor, hlt⟩, hfree⟩ := henabled
    have hslot := List.getElem?_eq_getElem hlt
    have hahead := h.ahead i s.slots[i] (by rw [hcursor]; exact le_rfl) hslot
    obtain ⟨s1, hvisit, hvisited⟩ := h.toInv.visitAt hslot hahead hfree fun slot k j => hok i slot k j hcursor
    have hs' : s' = { s1 with cursor := some (i + 1) } := by
      have hmap : (s.visitAt (s.cursor.getD 0) out).map
          (fun s1 : SockServer => { s1 with cursor := s.cursor.map (· + 1) }) = some s' := hstep
      rw [hcursor, Option.getD_some, hvisit] at hmap
      exact (Option.some.inj hmap).symm
    subst hs'
    have hinv := hvisited.inv
    refine ⟨⟨⟨fun j slot hj => ⟨(hinv.slot j slot hj).used, (hinv.slot j slot hj).closed⟩, hinv.placed, hinv.count, hinv.room⟩,
      fun j slot hij hj => ?_⟩, fun hpolled _ => hvisited.polled hpolled⟩
    rw [Option.getD_some] at hij
    rcases hvisited.ahead j slot hij hj with hold | hopen
    · exact h.ahead j slot (by rw [hcursor, Option.getD_some]; omega) hold
    · exact hopen
  | roundEnd =>
    obtain rfl := Option.some.inj hstep
    refine ⟨h.toInv.roundEnd.1, fun hpolled hsettled => ?_⟩
    show Polled (if s.compactNeeded then s.compact else s)
    split
    · exact h.toInv.polled_compact hpolled hsettled
    · exact hpolled
  | askClose j =>
    obtain rfl := Option.some.inj hstep
    exact ⟨h.askClose j, fun hpolled _ => hpolled⟩

theorem walk_init {clientsPerServer : Int} {s : SockServer} (h : (sockSystem clientsPerServer).init s) :
    s.Walk ∧ s.Polled := by
  obtain ⟨sockfds, hlen, hpos, rfl⟩ := h
  have hroom : (SockServer.init clientsPerServer).slots.length + sockfds.length ≤ maxCtxs := by
    show 0 + sockfds.length ≤ 8
    exact (Nat.zero_add _).trans_le (hlen.trans (by decide))
  have hbound := (bound_init clientsPerServer).foldl_bind hroom hpos
  refine ⟨⟨hbound.toInv, fun i slot _ hslot => ?_⟩, fun slot hslot _ => hbound.polled slot hslot⟩
  obtain ⟨k, hk⟩ := hbound.listens slot (List.mem_of_getElem? hslot)
  rw [hk]
  exact Option.some_ne_none _

/-- What the bookkeeping is for. -/
structure Books (s : SockServer) : Prop where
  /-- a slot that the event loop visits has a context -/
  visited : ∀ i slot, s.cursor = some i → s.slots[i]? = some slot → slot.ctx ≠ none
  /-- between rounds the slots are those of open connections, which know where they are -/
  slot : s.cursor = none → ∀ i slot, s.slots[i]? = some slot →
    ∃ c, slot.ctx = some c ∧ (s.ctxs c).type ≠ .none ∧ (s.ctxs c).i = i ∧ slot.fd = (s.ctxs c).sockfd
  /-- every open connection has a slot -/
  placed : ∀ c, (s.ctxs c).type ≠ .none → some c ∈ s.slots.map (·.ctx)
  /-- a round leaves the open connections in their old order -/
  order : ∀ s', s.Enabled .roundEnd → sockStep s .roundEnd = some s' →
    s'.slots.map (·.ctx) = (s.slots.map (·.ctx)).filter (·.isSome)
  count : ∀ k, (s.ctxs (.server k)).n = s.slots.countP (s.isClientOf k)

theorem SockServer.Walk.books {s : SockServer} (h : s.Walk) : Books s := by
  constructor
  · intro i slot hcursor hslot
    exact h.ahead i slot (by rw [hcursor]; exact le_rfl) hslot
  · intro hcursor i slot hslot
    obtain ⟨c, hc⟩ := Option.ne_none_iff_exists'.mp (h.ahead i slot (by rw [hcursor]; exact Nat.zero_le i) hslot)
    obtain ⟨hi, hfd, _, htype⟩ := (h.slot i slot hslot).used c hc
    refine ⟨c, hc, ?_, hi, hfd⟩
    rw [htype]
    cases c <;> exact SocketType.noConfusion
  · intro c hc
    obtain ⟨slot, hslot, hctx⟩ := h.placed c hc
    exact List.mem_map.mpr ⟨slot, List.mem_of_getElem? hslot, hctx⟩
  · intro s' _ hstep
    obtain rfl := Option.some.inj hstep
    exact h.toInv.roundEnd.2
  · exact h.count

/-- The sockets of a server are kept right as long as no new connection is refused; they are also polled right as
long as no open connection takes the place of a closed one. -/
theorem sockets_kept (clientsPerServer : Int) (s : SockServer) :
    (((sockSystem clientsPerServer).restrict Accepts).Reachable s → Books s) ∧
      (((sockSystem clientsPerServer).restrict fun s input => Accepts s input ∧ Settled s input).Reachable s →
        Books s ∧ (s.cursor = none → ∀ slot ∈ s.slots, slot.events = pollin)) := by
  have hinit : ∀ s, (sockSystem clientsPerServer).init s → s.Walk ∧ s.Polled := fun s hs => walk_init hs
  constructor
  · intro h
    have hwalk : s.Walk := by
      refine System.Reachable.invariant (S := (sockSystem clientsPerServer).restrict Accepts) (fun s hs => (hinit s hs).1)
        (fun s input s' _ hs hstep => ?_) h
      exact (walk_step hs hstep.1 hstep.2.1 hstep.2.2).1
    exact hwalk.books
  · intro h
    have hwalk : s.Walk ∧ s.Polled := by
      refine System.Reachable.invariant (S := (sockSystem clientsPerServer).restrict _) hinit
        (fun s input s' _ hs hstep => ?_) h
      obtain ⟨hnext, hpolled⟩ := walk_step hs.1 hstep.1.1 hstep.2.1 hstep.2.2
      exact ⟨hnext, hpolled hs.2 hstep.1.2⟩
    refine ⟨hwalk.1.books, fun hcursor slot hslot => hwalk.2 slot hslot ?_⟩
    obtain ⟨i, hi⟩ := List.getElem?_of_mem hslot
    exact hwalk.1.ahead i slot (by rw [hcursor]; exact Nat.zero_le i) hi

instance (s : SockServer) : (input : SockInput) → Decidable (s.Enabled input)
  | .poll _ _ => inferInstanceAs (Decidable (s.cursor = none))
  | .visit out => inferInstanceAs (Decidable ((∃ i ∈ s.cursor, i < s.slots.length) ∧
      ∀ j ∈ out.newCtx, (s.ctxs (.client j)).type = .none))
  | .roundEnd => inferInstanceAs (Decidable (∃ i ∈ s.cursor, s.slots.length ≤ i))
  | .askClose _ => inferInstanceAs (Decidable True)

/-- A socket listens: one connection comes and is refused, or two come and the first is hung up. -/
def refusedInputs : List SockInput := [.poll true fun i => ⟨false, i = 0⟩, .visit ⟨4, some 0, false, true⟩]

def hungUpInputs : List SockInput :=
  let quiet : SockInput := .visit ⟨-1, none, true, true⟩
  [.poll true fun i => ⟨false, i = 0⟩, .visit ⟨4, some 0, true, true⟩, quiet, .roundEnd,
    .poll true fun i => ⟨false, i = 0⟩, .visit ⟨5, some 1, true, true⟩, quiet, quiet, .roundEnd,
    .poll true fun i => ⟨i = 1, false⟩, quiet, quiet, quiet, .roundEnd]

/-- A connection that is refused leaves a NULL that the same round comes to; and of two connections the second is no
longer polled for input once the first is closed. -/
theorem sockets_misplaced :
    (∃ s, (sockSystem 1).Reachable s ∧ ¬Books s) ∧
      ∃ s, (sockSystem 2).Reachable s ∧ s.cursor = none ∧ ∃ slot ∈ s.slots, slot.events ≠ pollin := by
  have hbound : ∀ n, (sockSystem n).Reachable (bind (.init n) 3) := fun n =>
    .init ⟨[3], by decide, by decide, rfl⟩
  constructor
  · have hrun : (System.guardedRun SockServer.Enabled sockStep (bind (.init 1) 3) refusedInputs).any
        (fun s => s.cursor = some 1 ∧ ∃ slot ∈ s.slots[1]?, slot.ctx = none) = true := by
      decide +kernel
    obtain ⟨s, hs, hnull⟩ := (Option.any_eq_true _ _).mp hrun
    obtain ⟨hcursor, slot, hslot, hctx⟩ := of_decide_eq_true hnull
    exact ⟨s, (hbound 1).guardedRun hs, fun hbooks => hbooks.visited 1 slot hcursor hslot hctx⟩
  · have hrun : (System.guardedRun SockServer.Enabled sockStep (bind (.init 2) 3) hungUpInputs).any
        (fun s => s.cursor = none ∧ ∃ slot ∈ s.slots, slot.events ≠ pollin) = true := by
      decide +kernel
    obtain ⟨s, hs, hlost⟩ := (Option.any_eq_true _ _).mp hrun
    exact ⟨s, (hbound 2).guardedRun hs, of_decide_eq_true hlost⟩

end Omiiba.Rosalina
