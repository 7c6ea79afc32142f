import HadoopExamples.Library.Transition
import HadoopExamples.Avro.Schema

set_option autoImplicit false

/-! # The handshake

How a requestor and a responder of `ipc.py` come to know each other's protocol. A requestor sends
the hash of its own protocol and the hash that it takes for the one of the responder; the responder
keeps the protocols of its clients under their hashes, and asks for one that it does not have.

The hashes of the responders are known to all requestors of a process, under the names that the
transceivers give to the other side (`REMOTE_HASHES`). -/

namespace HadoopExamples.Avro

open Python

abbrev Hash := List UInt8

/-- What is used of `protocol.py`: `protocol.md5`, `str(protocol)` and `parse`. -/
structure Protocols (P : Type) where
  md5 : P → Hash
  str : P → PyString
  parse : PyString → Except AvroException P

def MAIL : PyString := "\x7b\"protocol\": \"Mail\"\x7d".toList

def CHAT : PyString := "\x7b\"protocol\": \"Chat\"\x7d".toList

/-- Two protocols, which are known by their texts, and their hashes -/
def twoProtocols : Protocols PyString where
  md5 p :=
    if p = MAIL then [0x9b, 0x7f, 0xde, 0x67, 0xad, 0x99, 0x28, 0xb9, 0x3a, 0x75, 0x82, 0x70, 0xb4,
      0xf2, 0xf4, 0xb8]
    else if p = CHAT then [0x3e, 0x3e, 0x3b, 0x85, 0x57, 0xbb, 0x03, 0xbf, 0xda, 0x9e, 0x37, 0x84,
      0x29, 0x6f, 0xec, 0xc5]
    else []
  str p := p
  parse text := .ok text

/-- `HandshakeRequest`, without its metadata, which there are never any -/
structure HandshakeRequest where
  clientHash : Hash
  clientProtocol : Option PyString
  serverHash : Hash

inductive HandshakeMatch where
  | BOTH
  | CLIENT
  | NONE
deriving DecidableEq

structure HandshakeResponse where
  match_ : HandshakeMatch
  serverProtocol : Option PyString
  serverHash : Option Hash

section Endpoints

variable {P : Type} (protocols : Protocols P)

/-! ## Requestor -/

structure Requestor (P : Type) where
  local_protocol : P
  remote_protocol : Option P
  send_protocol : Bool

def Requestor.new (local_protocol : P) : Requestor P := ⟨local_protocol, none, false⟩

/-- `write_handshake_request`, where `remote_hash` is what `REMOTE_HASHES` has. -/
def write_handshake_request (r : Requestor P) (remote_hash : Option Hash) :
    Requestor P × HandshakeRequest :=
  let local_hash := protocols.md5 r.local_protocol
  let clientProtocol := if r.send_protocol then some (protocols.str r.local_protocol) else none
  match remote_hash with
  | none => ({ r with remote_protocol := some r.local_protocol },
    { clientHash := local_hash, clientProtocol, serverHash := local_hash })
  | some remote_hash => (r, { clientHash := local_hash, clientProtocol, serverHash := remote_hash })

/-- `protocol.parse(handshake_response.get('serverProtocol'))` -/
def parseServerProtocol (response : HandshakeResponse) : Except AvroException P :=
  match response.serverProtocol with
  | some text => protocols.parse text
  | none => .error (.error (.protocolParseException (failMsg "Error parsing JSON: %s" [.none])))

/-- `read_handshake_response`; with what it returns is what it leaves in `REMOTE_HASHES`. -/
def read_handshake_response (r : Requestor P) (remote_hash : Option Hash)
    (response : HandshakeResponse) : Except AvroException (Bool × Requestor P × Option Hash) :=
  match response.match_ with
  | .BOTH => .ok (true, { r with send_protocol := false }, remote_hash)
  | .CLIENT =>
    if r.send_protocol then .error (avroException "Handshake failure." [])
    else do
      let remote_protocol ← parseServerProtocol protocols response
      return (true, { r with remote_protocol := some remote_protocol, send_protocol := false },
        response.serverHash)
  | .NONE =>
    if r.send_protocol then .error (avroException "Handshake failure." [])
    else do
      let remote_protocol ← parseServerProtocol protocols response
      return (false, { r with remote_protocol := some remote_protocol, send_protocol := true },
        response.serverHash)

/-! ## Responder -/

structure Responder (P : Type) where
  local_protocol : P
  protocol_cache : List (Hash × P)

def Responder.new (local_protocol : P) : Responder P :=
  ⟨local_protocol, [(protocols.md5 local_protocol, local_protocol)]⟩

/-- The protocol of the client, from the cache or from the request. -/
def remoteProtocol (responder : Responder P) (request : HandshakeRequest) :
    Except AvroException (Option P × Responder P) :=
  match responder.protocol_cache.lookup request.clientHash, request.clientProtocol with
  | some remote_protocol, _ => .ok (some remote_protocol, responder)
  | none, some client_protocol => do
    let remote_protocol ← protocols.parse client_protocol
    return (some remote_protocol, { responder with
      protocol_cache := (request.clientHash, remote_protocol) :: responder.protocol_cache })
  | none, none => .ok (none, responder)

/-- `process_handshake`; `None` for the protocol is a handshake that has to be made again. -/
def process_handshake (responder : Responder P) (request : HandshakeRequest) :
    Except AvroException (Option P × HandshakeResponse × Responder P) := do
  let (remote_protocol, responder) ← remoteProtocol protocols responder request
  let local_hash := protocols.md5 responder.local_protocol
  let match_ := match remote_protocol with
    | none => .NONE
    | some _ => if local_hash = request.serverHash then .BOTH else .CLIENT
  if match_ = .BOTH then return (remote_protocol, ⟨match_, none, none⟩, responder)
  else return (remote_protocol,
    ⟨match_, some (protocols.str responder.local_protocol), some local_hash⟩, responder)

/-! ## A call that waits for its response -/

/-- What takes part in the calls of a requestor. -/
structure Session (P : Type) where
  requestor : Requestor P
  remote_hash : Option Hash
  responder : Responder P
  exchanges : ℕ

/-- `Requestor.request`, with at most `limit` calls one in the other, up to the protocol that it
    reads the call response with. Where the responder raises an exception, there is no response. -/
def request : ℕ → EStateM AvroException (Session P) (Option P)
  | 0 => throw .runtimeError
  | limit + 1 => fun s =>
    let (requestor, handshake_request) :=
      write_handshake_request protocols s.requestor s.remote_hash
    let s := { s with requestor, exchanges := s.exchanges + 1 }
    match process_handshake protocols s.responder handshake_request with
    | .error _ => .error .typeError s
    | .ok (_, handshake_response, responder) =>
      let s := { s with responder }
      match read_handshake_response protocols s.requestor s.remote_hash handshake_response with
      | .error e => .error e s
      | .ok (call_response_exists, requestor, remote_hash) =>
        let s := { s with requestor, remote_hash }
        if call_response_exists then .ok requestor.remote_protocol s else request limit s

end Endpoints

/-! ## What a call comes to -/

section Calls

variable {P : Type} {protocols : Protocols P}

/-- The text of the protocol is read as the protocol, or one that is `==` to it. This is true of a
    protocol whose messages only refer to types of its list, where these are all in its namespace or
    have their namespaces in their JSON. The name of another type need not be found again: `str`
    refers to it by its name alone, which a record of another namespace takes for one of its own
    (`SchemaObject.Printable`), and a message may come to be read before the one that defines it. -/
def Protocols.Prints (protocols : Protocols P) (p : P) : Prop :=
  protocols.parse (protocols.str p) = .ok p

/-- No protocol in the cache is under the hash of another one. -/
def Responder.Consistent (protocols : Protocols P) (responder : Responder P) : Prop :=
  ∀ entry ∈ responder.protocol_cache, entry.1 = protocols.md5 entry.2

theorem Consistent.new (p : P) : (Responder.new protocols p).Consistent protocols :=
  List.forall_mem_singleton.2 rfl

/-- The response to a client that the responder knows. -/
theorem process_handshake_known {responder : Responder P} {handshake_request : HandshakeRequest}
    {p : P} (h : responder.protocol_cache.lookup handshake_request.clientHash = some p) :
    process_handshake protocols responder handshake_request
      = .ok (some p,
        if protocols.md5 responder.local_protocol = handshake_request.serverHash then
          ⟨.BOTH, none, none⟩
        else ⟨.CLIENT, some (protocols.str responder.local_protocol),
          some (protocols.md5 responder.local_protocol)⟩, responder) := by
  have hremote : remoteProtocol protocols responder handshake_request
      = .ok (some p, responder) := by
    unfold remoteProtocol
    rw [h]
  unfold process_handshake
  rw [hremote]
  by_cases hhash : protocols.md5 responder.local_protocol = handshake_request.serverHash
  · simp [bind, Except.bind, pure, Except.pure, hhash]
  · simp [bind, Except.bind, pure, Except.pure, hhash]

/-- The response to a client that it does not know and that has not sent its protocol. -/
theorem process_handshake_unknown {responder : Responder P}
    {handshake_request : HandshakeRequest}
    (h : responder.protocol_cache.lookup handshake_request.clientHash = none)
    (hprotocol : handshake_request.clientProtocol = none) :
    process_handshake protocols responder handshake_request
      = .ok (none, ⟨.NONE, some (protocols.str responder.local_protocol),
          some (protocols.md5 responder.local_protocol)⟩, responder) := by
  unfold process_handshake remoteProtocol
  rw [h, hprotocol]
  rfl

/-- The response to a client that has sent its protocol. -/
theorem process_handshake_sent {responder : Responder P} {handshake_request : HandshakeRequest}
    {client : P} (hclient : protocols.Prints client)
    (h : responder.protocol_cache.lookup handshake_request.clientHash = none)
    (hprotocol : handshake_request.clientProtocol = some (protocols.str client)) :
    process_handshake protocols responder handshake_request
      = .ok (some client,
        if protocols.md5 responder.local_protocol = handshake_request.serverHash then
          ⟨.BOTH, none, none⟩
        else ⟨.CLIENT, some (protocols.str responder.local_protocol),
          some (protocols.md5 responder.local_protocol)⟩,
        { responder with
          protocol_cache :=
            (handshake_request.clientHash, client) :: responder.protocol_cache }) := by
  have hremote : remoteProtocol protocols responder handshake_request
      = .ok (some client, { responder with
        protocol_cache :=
          (handshake_request.clientHash, client) :: responder.protocol_cache }) := by
    unfold remoteProtocol
    rw [h, hprotocol]
    dsimp only
    rw [hclient]
    rfl
  unfold process_handshake
  rw [hremote]
  by_cases hhash : protocols.md5 responder.local_protocol = handshake_request.serverHash
  · simp [bind, Except.bind, pure, Except.pure, hhash]
  · simp [bind, Except.bind, pure, Except.pure, hhash]

section Reading

variable {server : P} {r : Requestor P} {remote_hash : Option Hash} {hash : Hash}

theorem read_BOTH (serverProtocol : Option PyString) (serverHash : Option Hash) :
    read_handshake_response protocols r remote_hash ⟨.BOTH, serverProtocol, serverHash⟩
      = .ok (true, { r with send_protocol := false }, remote_hash) := rfl

theorem read_CLIENT (hserver : protocols.Prints server) (hsend : r.send_protocol = false) :
    read_handshake_response protocols r remote_hash
        ⟨.CLIENT, some (protocols.str server), some hash⟩
      = .ok (true, { r with remote_protocol := some server, send_protocol := false },
        some hash) := by
  unfold read_handshake_response parseServerProtocol
  dsimp only
  rw [hsend, hserver]
  rfl

theorem read_NONE (hserver : protocols.Prints server) (hsend : r.send_protocol = false) :
    read_handshake_response protocols r remote_hash
        ⟨.NONE, some (protocols.str server), some hash⟩
      = .ok (false, { r with remote_protocol := some server, send_protocol := true },
        some hash) := by
  unfold read_handshake_response parseServerProtocol
  dsimp only
  rw [hsend, hserver]
  rfl

end Reading

section Pass

variable {s : Session P} {limit : ℕ} {requestor requestor' : Requestor P}
  {handshake_request : HandshakeRequest} {handshake_response : HandshakeResponse}
  {p : Option P} {responder : Responder P} {remote_hash : Option Hash}

/-- A pass of `request` that reads the response. -/
theorem request_read {result : Option P}
    (hwrite : write_handshake_request protocols s.requestor s.remote_hash
      = (requestor, handshake_request))
    (hprocess : process_handshake protocols s.responder handshake_request
      = .ok (p, handshake_response, responder))
    (hread : read_handshake_response protocols requestor s.remote_hash handshake_response
      = .ok (true, requestor', remote_hash))
    (hresult : requestor'.remote_protocol = result) :
    ∃ s', request protocols (limit + 1) s = .ok result s' ∧ s'.exchanges = s.exchanges + 1 := by
  refine ⟨⟨requestor', remote_hash, responder, s.exchanges + 1⟩, ?_, rfl⟩
  rw [request]
  dsimp only
  rw [hwrite]
  dsimp only
  rw [hprocess]
  dsimp only
  rw [hread]
  dsimp only
  rw [if_pos rfl, hresult]

/-- A pass of `request` after which the request is made again. -/
theorem request_again
    (hwrite : write_handshake_request protocols s.requestor s.remote_hash
      = (requestor, handshake_request))
    (hprocess : process_handshake protocols s.responder handshake_request
      = .ok (p, handshake_response, responder))
    (hread : read_handshake_response protocols requestor s.remote_hash handshake_response
      = .ok (false, requestor', remote_hash)) :
    request protocols (limit + 1) s
      = request protocols limit ⟨requestor', remote_hash, responder, s.exchanges + 1⟩ := by
  rw [request]
  dsimp only
  rw [hwrite]
  dsimp only
  rw [hprocess]
  dsimp only
  rw [hread]
  rfl

end Pass

/-- A call of a client that the responder knows, in one exchange. -/
theorem request_known {client server : P} (hserver : protocols.Prints server)
    (hinjective : protocols.md5 server = protocols.md5 client → server = client)
    {remote_protocol : Option P} {remote_hash : Option Hash} {cache : List (Hash × P)} {p : P}
    (hlookup : cache.lookup (protocols.md5 client) = some p) (exchanges limit : ℕ) :
    ∃ s', request protocols (limit + 1)
          ⟨⟨client, remote_protocol, false⟩, remote_hash, ⟨server, cache⟩, exchanges⟩
        = .ok (if remote_hash = some (protocols.md5 server) then remote_protocol else some server)
          s' ∧
      s'.exchanges = exchanges + 1 := by
  have hprocess := fun hash => @process_handshake_known P protocols ⟨server, cache⟩
    ⟨protocols.md5 client, none, hash⟩ p hlookup
  cases remote_hash with
  | none =>
    specialize hprocess (protocols.md5 client)
    by_cases hhash : protocols.md5 server = protocols.md5 client
    · rw [if_pos hhash] at hprocess
      refine request_read rfl hprocess (read_BOTH none none) ?_
      rw [if_neg (by simp), hinjective hhash]
    · rw [if_neg hhash] at hprocess
      refine request_read rfl hprocess (read_CLIENT hserver rfl) ?_
      rw [if_neg (by simp)]
  | some hash =>
    specialize hprocess hash
    by_cases hhash : protocols.md5 server = hash
    · rw [if_pos hhash] at hprocess
      refine request_read rfl hprocess (read_BOTH none none) ?_
      rw [if_pos (congrArg some hhash.symm)]
    · rw [if_neg hhash] at hprocess
      refine request_read rfl hprocess (read_CLIENT hserver rfl) ?_
      rw [if_neg (fun h => hhash (Option.some.inj h).symm)]

/-- A call of a client that it does not know, which sends its protocol in the second exchange. -/
theorem request_unknown {client server : P} (hclient : protocols.Prints client)
    (hserver : protocols.Prints server) {remote_protocol : Option P} {remote_hash : Option Hash}
    {cache : List (Hash × P)} (hlookup : cache.lookup (protocols.md5 client) = none)
    (exchanges limit : ℕ) :
    ∃ s', request protocols (limit + 2)
          ⟨⟨client, remote_protocol, false⟩, remote_hash, ⟨server, cache⟩, exchanges⟩
        = .ok (some server) s' ∧
      s'.exchanges = exchanges + 2 := by
  -- the first request is without the protocol, whichever hash it has for the responder
  have hfirst : ∃ remote_protocol' serverHash,
      write_handshake_request protocols ⟨client, remote_protocol, false⟩ remote_hash
        = (⟨client, remote_protocol', false⟩, ⟨protocols.md5 client, none, serverHash⟩) := by
    cases remote_hash with
    | none => exact ⟨_, _, rfl⟩
    | some hash => exact ⟨_, _, rfl⟩
  obtain ⟨remote_protocol', serverHash, hwrite⟩ := hfirst
  have hprocess := @process_handshake_unknown P protocols ⟨server, cache⟩
    ⟨protocols.md5 client, none, serverHash⟩ hlookup rfl
  have hprocess' := @process_handshake_sent P protocols ⟨server, cache⟩
    ⟨protocols.md5 client, some (protocols.str client), protocols.md5 server⟩ client hclient
    hlookup rfl
  rw [if_pos rfl] at hprocess'
  rw [request_again hwrite hprocess (read_NONE hserver rfl)]
  exact request_read rfl hprocess' (read_BOTH none none) rfl

/-- A call makes one exchange if the responder knows the client, and else two. What it reads the
    response with is the protocol of the responder, but for a requestor that has had the hash of
    the responder from another one: it goes on with what it has, which is nothing if it is new. -/
theorem request_eq {client server : P} (hclient : protocols.Prints client)
    (hserver : protocols.Prints server)
    (hinjective : protocols.md5 server = protocols.md5 client → server = client)
    {s : Session P} (hrequestor : s.requestor.local_protocol = client)
    (hresponder : s.responder.local_protocol = server)
    (hsend : s.requestor.send_protocol = false) (limit : ℕ) :
    ∃ s', request protocols (limit + 2) s
        = .ok (if s.remote_hash = some (protocols.md5 server) ∧
            (s.responder.protocol_cache.lookup (protocols.md5 client)).isSome then
          s.requestor.remote_protocol else some server) s' ∧
      s'.exchanges = s.exchanges
        + if (s.responder.protocol_cache.lookup (protocols.md5 client)).isSome then 1 else 2 := by
  obtain ⟨⟨_, remote_protocol, _⟩, remote_hash, ⟨_, cache⟩, exchanges⟩ := s
  dsimp only at hrequestor hresponder hsend ⊢
  subst hrequestor hresponder hsend
  rename_i client server
  cases hlookup : cache.lookup (protocols.md5 client) with
  | some p =>
    simpa using request_known hserver hinjective hlookup exchanges (limit + 1)
  | none =>
    simpa using request_unknown hclient hserver hlookup exchanges limit

/-- A new client, whose protocol is another one than the responder's -/
theorem request_eq_mail :
    ∃ s', request twoProtocols 2 ⟨.new MAIL, none, .new twoProtocols CHAT, 0⟩
        = .ok (some CHAT) s' ∧ s'.exchanges = 2 :=
  @request_eq _ twoProtocols MAIL CHAT rfl rfl (by decide)
    ⟨.new MAIL, none, .new twoProtocols CHAT, 0⟩ rfl rfl rfl 0

end Calls

end HadoopExamples.Avro
