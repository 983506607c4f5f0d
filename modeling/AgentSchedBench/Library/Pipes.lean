import Mathlib.Data.List.Basic

/-!
# A server behind pipes

A server reads requests from one pipe and writes lines to another.  The lines
do not tell to which request they belong; the model keeps the origin of each.
What the server owes, it owes in the order of the requests, so that with one
request on its way the next answer is the one to that request.
-/

namespace Pipes

/-- A line of the output, and the request that it answers. -/
structure Line (ρ ℓ : Type) where
  text : ℓ
  origin : Option ρ
deriving DecidableEq, Repr

/--
A server, with the requests that it has not read, the one that it executes and
the lines that have not been read.  A request whose line is not whole can only
be answered.
-/
structure Server (ρ ℓ : Type) where
  requests : List (ρ × Bool)
  running : Option ρ
  lines : List (Line ρ ℓ)
  ended : Bool
deriving DecidableEq, Repr

/-- What a server does by itself. -/
inductive Act (ℓ : Type) where
  | reads
  | answers (text : ℓ)
  | emits (text : ℓ)
  | takes (all : Bool)
  | ends (last : Option ℓ)
deriving DecidableEq, Repr

variable {ρ ℓ : Type}

namespace Server

def fresh : Server ρ ℓ where
  requests := []
  running := none
  lines := []
  ended := false

/-- A request is written; a server that has ended does not get it. -/
def send (server : Server ρ ℓ) (request : ρ) : Server ρ ℓ :=
  if server.ended then server
  else { server with requests := server.requests ++ [(request, true)] }

/-- The requests that have still to be answered or whose answer is not read. -/
def owed (server : Server ρ ℓ) : List ρ :=
  server.lines.filterMap Line.origin ++
    (server.running.toList ++ server.requests.map Prod.fst)

/-- The requests that may still be executed. -/
def unread (server : Server ρ ℓ) : List ρ :=
  (server.requests.filter Prod.snd).map Prod.fst

/-- A step of a server, with the requests that it begins to execute. -/
inductive Step : Server ρ ℓ → Act ℓ → List ρ → Server ρ ℓ → Prop where
  | reads {request : ρ} {whole : Bool} {rest : List (ρ × Bool)}
      {lines : List (Line ρ ℓ)} :
      Step ⟨(request, whole) :: rest, none, lines, false⟩ .reads
        (if whole then [request] else [])
        ⟨rest, some request, lines, false⟩
  | answers {requests : List (ρ × Bool)} {request : ρ}
      {lines : List (Line ρ ℓ)} (text : ℓ) :
      Step ⟨requests, some request, lines, false⟩ (.answers text) []
        ⟨requests, none, lines ++ [⟨text, some request⟩], false⟩
  | emits {requests : List (ρ × Bool)} {running : Option ρ}
      {lines : List (Line ρ ℓ)} (text : ℓ) :
      Step ⟨requests, running, lines, false⟩ (.emits text) []
        ⟨requests, running, lines ++ [⟨text, none⟩], false⟩
  | takesAll {taken : ρ × Bool} {rest : List (ρ × Bool)} {running : ρ}
      {lines : List (Line ρ ℓ)} :
      -- what is executed reads the input of the server
      Step ⟨taken :: rest, some running, lines, false⟩ (.takes true) []
        ⟨rest, some running, lines, false⟩
  | takesPart {request : ρ} {whole : Bool} {rest : List (ρ × Bool)}
      {running : ρ} {lines : List (Line ρ ℓ)} :
      Step ⟨(request, whole) :: rest, some running, lines, false⟩
        (.takes false) []
        ⟨(request, false) :: rest, some running, lines, false⟩
  | ends {requests : List (ρ × Bool)} {running : Option ρ}
      {lines : List (Line ρ ℓ)} :
      Step ⟨requests, running, lines, false⟩ (.ends none) []
        ⟨[], none, lines, true⟩
  | endsAnswering {requests : List (ρ × Bool)} {request : ρ}
      {lines : List (Line ρ ℓ)} (text : ℓ) :
      Step ⟨requests, some request, lines, false⟩ (.ends (some text)) []
        ⟨[], none, lines ++ [⟨text, some request⟩], true⟩

variable {server next : Server ρ ℓ} {act : Act ℓ} {started : List ρ}

/-- A server by itself owes nothing new. -/
theorem Step.owed_sublist (step : Step server act started next) :
    List.Sublist next.owed server.owed := by
  cases step with
  | reads => simp [owed]
  | answers text => simp [owed]
  | emits text => simp [owed]
  | takesAll => simp [owed]
  | takesPart => simp [owed]
  | ends => simp [owed]
  | endsAnswering text => simp [owed]

/-- What is executed is not executed again. -/
theorem Step.unread_sublist (step : Step server act started next) :
    List.Sublist (started ++ next.unread) server.unread := by
  cases step with
  | @reads request whole rest lines => cases whole <;> simp [unread]
  | answers text => simp [unread]
  | emits text => simp [unread]
  | @takesAll taken rest running lines =>
      obtain ⟨request, whole⟩ := taken
      cases whole <;> simp [unread]
  | @takesPart request whole rest running lines =>
      cases whole <;> simp [unread]
  | ends => simp [unread]
  | endsAnswering text => simp [unread]

/-- Lines that answer nothing are those that the server emits. -/
theorem Step.lines (step : Step server act started next)
    {line : Line ρ ℓ} (member : line ∈ next.lines)
    (stray : line.origin = none) :
    line ∈ server.lines ∨ act = .emits line.text := by
  cases step with
  | reads => exact .inl member
  | answers text =>
      rcases List.mem_append.mp member with old | new
      · exact .inl old
      · cases List.mem_singleton.mp new
        cases stray
  | emits text =>
      rcases List.mem_append.mp member with old | new
      · exact .inl old
      · cases List.mem_singleton.mp new
        exact .inr rfl
  | takesAll => exact .inl member
  | takesPart => exact .inl member
  | ends => exact .inl member
  | endsAnswering text =>
      rcases List.mem_append.mp member with old | new
      · exact .inl old
      · cases List.mem_singleton.mp new
        cases stray

/-- A server that has ended has nothing more to do. -/
def Settled (server : Server ρ ℓ) : Prop :=
  server.ended = true → server.running = none ∧ server.requests = []

theorem Step.settled (step : Step server act started next) : next.Settled := by
  cases step with
  | ends => exact fun _ => ⟨rfl, rfl⟩
  | endsAnswering text => exact fun _ => ⟨rfl, rfl⟩
  | _ => nofun

theorem Settled.send (settled : server.Settled) (request : ρ) :
    (server.send request).Settled := by
  rw [Server.send]
  split
  · exact settled
  · next alive => exact fun ended => absurd ended alive

theorem Settled.owed (settled : server.Settled) (ended : server.ended = true)
    (allRead : server.lines = []) : server.owed = [] := by
  rw [Server.owed, allRead, (settled ended).1, (settled ended).2]
  rfl

/-! ## One request on its way -/

theorem owed_send (owesNothing : server.owed = []) (request : ρ) :
    List.Sublist (server.send request).owed [request] := by
  rw [send]
  split
  · rw [owesNothing]
    exact List.nil_sublist _
  · have grows :
        owed { server with requests := server.requests ++ [(request, true)] } =
          server.owed ++ [request] := by
      simp [owed]
    rw [grows, owesNothing]
    exact List.Sublist.refl _

theorem unread_send (server : Server ρ ℓ) (request : ρ) :
    List.Sublist (server.send request).unread (server.unread ++ [request]) := by
  rw [send]
  split
  · exact List.sublist_append_left _ _
  · simp [unread]

theorem lines_send (server : Server ρ ℓ) (request : ρ) :
    (server.send request).lines = server.lines := by
  rw [send]
  split <;> rfl

variable {line : Line ρ ℓ} {rest : List (Line ρ ℓ)}

/-- A line that answers a request is read: it was owed. -/
theorem owed_of_answer (isNext : server.lines = line :: rest) {request : ρ}
    (isAnswer : line.origin = some request) :
    server.owed = request :: owed { server with lines := rest } := by
  simp [owed, isNext, isAnswer]

theorem owed_of_stray (isNext : server.lines = line :: rest)
    (isStray : line.origin = none) :
    server.owed = owed { server with lines := rest } := by
  simp [owed, isNext, isStray]

/-- The answer that is read is the one to the only request on its way. -/
theorem answer_of_owed {request : ρ}
    (oneOwed : List.Sublist server.owed [request])
    (isNext : server.lines = line :: rest) {answered : ρ}
    (isAnswer : line.origin = some answered) :
    answered = request ∧ owed { server with lines := rest } = [] := by
  rw [owed_of_answer isNext isAnswer] at oneOwed
  rcases List.sublist_singleton.mp oneOwed with isNil | isOne
  · cases isNil
  · exact List.cons.inj isOne

end Server

end Pipes
