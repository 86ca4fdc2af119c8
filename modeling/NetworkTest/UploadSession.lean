import NetworkTest.Upload

/-!
One upload, whatever the server has under the name already. The client's side
of the connection is one fixed stream: the name, the number of bytes to come,
and the file from the offset it was told. The server takes it in pieces whose
places are known by how much it has taken before; once a piece was short the
connection is gone and nothing more comes.
-/

namespace NetworkTest.Upload

open CBuffer (Bytes Memory cstring strncpy)
open Directory (Files contents)
open IntBytes (Word ByteOrder INT_MAX)
open Channel (Link)
open FileClient (Client NAMESIZE seek)
open Machine (Step exec Along)

/-- An upload of `file` under `name`, for which the server has `old`. -/
structure Request where
  name : Bytes
  file : Bytes
  old : Bytes

namespace Request

/-- What the server makes of the name. -/
def key (request : Request) : Bytes := request.name.take NAMESIZE

def offset (request : Request) : Word := BitVec.ofNat 32 request.old.length

def first (request : Request) : Nat := seek request.file.length request.offset

def payload (request : Request) : Bytes := request.file.drop request.first

def announced (request : Request) : Word :=
  BitVec.ofNat 32 request.file.length - request.offset

def header (request : Request) (order : ByteOrder) : Bytes :=
  strncpy request.name NAMESIZE ++ order.encode request.announced

def stream (request : Request) (order : ByteOrder) : Bytes :=
  request.header order ++ request.payload

theorem length_header (request : Request) (order : ByteOrder) :
    (request.header order).length = NAMESIZE + 4 := by
  simp [header, CBuffer.strncpy_length]

theorem stream_take_name (request : Request) (order : ByteOrder) {count : Nat}
    (inside : count ≤ NAMESIZE) :
    (request.stream order).take count = (strncpy request.name NAMESIZE).take count := by
  have long : count ≤ (strncpy request.name NAMESIZE).length := by
    rw [CBuffer.strncpy_length]
    exact inside
  rw [stream, header, List.append_assoc, List.take_append_of_le_length long]

theorem stream_drop_name (request : Request) (order : ByteOrder) :
    (request.stream order).drop NAMESIZE = order.encode request.announced ++ request.payload := by
  rw [stream, header, List.append_assoc]
  exact List.drop_left' (CBuffer.strncpy_length ..)

theorem stream_drop_header (request : Request) (order : ByteOrder) (count : Nat) :
    (request.stream order).drop (NAMESIZE + 4 + count) = request.payload.drop count := by
  rw [← List.drop_drop, stream, List.drop_left' (length_header ..)]

/-- The file is a continuation of `old` exactly if the rest that is sent
completes it. -/
theorem resumed_iff {request : Request} (small : request.file.length ≤ INT_MAX) :
    request.old ++ request.payload = request.file ↔ request.old <+: request.file := by
  constructor
  · intro whole
    exact ⟨request.payload, whole⟩
  · rintro ⟨rest, whole⟩
    have fits : request.old.length < 2147483648 := by
      rw [← whole, List.length_append, INT_MAX] at small
      omega
    have value : request.offset.toNat = request.old.length := by
      rw [offset, BitVec.toNat_ofNat, Nat.mod_eq_of_lt (by omega)]
    have positive : request.offset.msb = false := by
      rw [BitVec.msb_eq_decide, value]
      simpa using fits
    rw [payload, first, seek, positive, value, ← whole]
    simp

/-- A count that equals the announced one is that of the whole rest. -/
theorem whole_of_count {request : Request} {count : Nat}
    (small : request.file.length ≤ INT_MAX) (same : BitVec.ofNat 32 count = request.announced) :
    request.payload.length ≤ count := by
  have length : request.payload.length = request.file.length - request.first := by
    rw [payload, List.length_drop]
  rw [length]
  rw [INT_MAX] at small
  cases negative : request.offset.msb with
  | true =>
      have refused : request.first = request.file.length := by
        rw [first, seek, negative, if_pos rfl]
      omega
  | false =>
      have found : request.first = request.offset.toNat := by
        rw [first, seek, negative, if_neg (by simp)]
      rw [found]
      rcases Nat.le_total request.file.length request.offset.toNat with beyond | within
      · omega
      · have value := congrArg BitVec.toNat same
        rw [announced, BitVec.toNat_sub, BitVec.toNat_ofNat, BitVec.toNat_ofNat] at value
        have bound := request.offset.isLt
        omega

end Request

/-- A send takes all its bytes unless the connection has been cut; the client
has its file. -/
def SendsWhole (system : System) : Event → Prop
  | .connect name _ => name ≠ [] ∧ ∀ byte ∈ name, byte ≠ 0
  | .server (.sendOffset result) => system.up.broken = true ∨ result = some 4
  | .client (.openRead ok) => ok = true
  | .client (.sendName result) => system.up.broken = true ∨ result = some NAMESIZE
  | .client (.sendSize result) => system.up.broken = true ∨ result = some 4
  | .client (.sendBlock result) =>
      system.up.broken = true ∨ result = some system.client.block.length
  | _ => True

instance (system : System) : (event : Event) → Decidable (SendsWhole system event)
  | .connect name _ => inferInstanceAs (Decidable (name ≠ [] ∧ ∀ byte ∈ name, byte ≠ 0))
  | .server (.sendOffset result) =>
      inferInstanceAs (Decidable (system.up.broken = true ∨ result = some 4))
  | .client (.openRead ok) => inferInstanceAs (Decidable (ok = true))
  | .client (.sendName result) =>
      inferInstanceAs (Decidable (system.up.broken = true ∨ result = some NAMESIZE))
  | .client (.sendSize result) =>
      inferInstanceAs (Decidable (system.up.broken = true ∨ result = some 4))
  | .client (.sendBlock result) =>
      inferInstanceAs
        (Decidable (system.up.broken = true ∨ result = some system.client.block.length))
  | .client (.recvOffset _) => isTrue trivial
  | .client .fread => isTrue trivial
  | .server .accept => isTrue trivial
  | .server .acceptFails => isTrue trivial
  | .server (.recvName _) => isTrue trivial
  | .server (.openRead _) => isTrue trivial
  | .server (.recvSize _) => isTrue trivial
  | .server (.openAppend _) => isTrue trivial
  | .server (.recvData _) => isTrue trivial
  | .server (.fwrite _) => isTrue trivial
  | .cut _ _ => isTrue trivial

/-- Where the client is in the stream while the connection holds. -/
def Sending (order : ByteOrder) (request : Request) (client : Client) (up : Link UInt8) :
    Prop :=
  match client.pc with
  | .openRead => up.sent = [] ∧ up.closed = false
  | .sendName => up.sent = [] ∧ up.closed = false
  | .recvOffset => up.sent = strncpy request.name NAMESIZE ∧ up.closed = false
  | .sendSize =>
      up.sent = strncpy request.name NAMESIZE ∧ up.closed = false ∧
        order.decode client.currbytes = request.offset ∧
        client.totalbytes = request.announced ∧ client.position = request.file.length
  | .reading =>
      up.closed = false ∧ ∃ count, client.position = request.first + count ∧
        up.sent = request.header order ++ request.payload.take count
  | .sending block =>
      up.closed = false ∧ ∃ count, client.position = request.first + count ∧
        up.sent ++ block = request.header order ++ request.payload.take count
  | .finished => up.sent = request.stream order

/-- The connection went while the name or the size was coming. -/
def Lost (up : Link UInt8) : Prop := up.Dead ∧ up.taken.length < NAMESIZE + 4

/-- What the server has made of what it has taken; `origin` are the files at
the start of the session. -/
def Receiving (order : ByteOrder) (origin : Files Bytes UInt8) (request : Request)
    (server : FileServer.Server) (up : Link UInt8) : Prop :=
  match server.pc with
  | .accepting => False
  | .exited => False
  | .recvName => server.files = origin ∧ up.taken = []
  | .openRead =>
      server.files = origin ∧ (Lost up ∨
        server.name = request.key ∧ up.taken.length = NAMESIZE)
  | .sendOffset =>
      server.files = origin ∧ (Lost up ∨
        server.name = request.key ∧ up.taken.length = NAMESIZE ∧
          server.currbytes = request.offset)
  | .recvSize =>
      server.files = origin ∧ (Lost up ∨
        server.name = request.key ∧ up.taken.length = NAMESIZE)
  | .openAppend =>
      server.files = origin ∧ (Lost up ∨
        server.name = request.key ∧ up.taken.length = NAMESIZE + 4 ∧
          order.decode server.totalbytes = request.announced)
  | .recvData =>
      (Lost up ∧ ∃ name, server.files = Directory.append origin name []) ∨
        server.name = request.key ∧ order.decode server.totalbytes = request.announced ∧
          ∃ count, up.taken.length = NAMESIZE + 4 + count ∧
            server.numtotal = BitVec.ofNat 32 count ∧
            server.files = Directory.append origin request.key (request.payload.take count)
  | .writing block =>
      server.name = request.key ∧ order.decode server.totalbytes = request.announced ∧
        ∃ count, up.taken.length = NAMESIZE + 4 + count + block.length ∧
          server.numtotal = BitVec.ofNat 32 count ∧
          server.files = Directory.append origin request.key (request.payload.take count) ∧
          request.payload.take count ++ block = request.payload.take (count + block.length)

def silent : FileServer.Pc → Bool
  | .recvName => true
  | .openRead => true
  | .sendOffset => true
  | _ => false

structure SessionInv (order : ByteOrder) (origin : Files Bytes UInt8) (request : Request)
    (system : System) : Prop where
  name : system.client.name = request.name
  file : system.client.file = request.file
  named : request.name ≠ [] ∧ ∀ byte ∈ request.name, byte ≠ 0
  old : request.old = contents origin request.key
  together : system.down.broken = system.up.broken
  ordered : system.up.sent <+: request.stream order
  sending : system.up.broken = false → Sending order request system.client system.up
  receiving : Receiving order origin request system.server system.up
  answered : system.up.broken = false →
    system.down.sent = if silent system.server.pc then [] else order.encode request.offset
  waiting : system.down.closed = false

theorem sending_ordered {order : ByteOrder} {request : Request} {client : Client}
    {up : Link UInt8} (sending : Sending order request client up) :
    up.sent <+: request.stream order := by
  have taken : ∀ count, request.header order ++ request.payload.take count <+:
      request.stream order :=
    fun count => (List.prefix_append_right_inj _).mpr (List.take_prefix ..)
  have name : strncpy request.name NAMESIZE <+: request.stream order := by
    rw [Request.stream, Request.header, List.append_assoc]
    exact List.prefix_append ..
  unfold Sending at sending
  split at sending
  · rw [sending.1]
    exact List.nil_prefix
  · rw [sending.1]
    exact List.nil_prefix
  · rw [sending.1]
    exact name
  · rw [sending.1]
    exact name
  · obtain ⟨_, count, _, sent⟩ := sending
    rw [sent]
    exact taken count
  · obtain ⟨_, count, _, sent⟩ := sending
    exact (List.prefix_append ..).trans (sent ▸ taken count)
  · exact ⟨[], by rw [sending, List.append_nil]⟩

theorem receiving_link {order : ByteOrder} {origin : Files Bytes UInt8} {request : Request}
    {server : FileServer.Server} {up other : Link UInt8}
    (receiving : Receiving order origin request server up) (taken : other.taken = up.taken)
    (dead : up.Dead → other.Dead) : Receiving order origin request server other := by
  have lost : Lost up → Lost other := fun lost => ⟨dead lost.1, taken ▸ lost.2⟩
  unfold Receiving at receiving ⊢
  split at receiving
  · exact receiving
  · exact receiving
  · simpa [taken] using receiving
  all_goals rename_i here
  · simpa [here, taken] using receiving.imp_right (Or.imp_left lost)
  · simpa [here, taken] using receiving.imp_right (Or.imp_left lost)
  · simpa [here, taken] using receiving.imp_right (Or.imp_left lost)
  · simpa [here, taken] using receiving.imp_right (Or.imp_left lost)
  · simpa [here, taken] using receiving.imp_left (And.imp_left lost)
  · simpa [here, taken] using receiving

theorem session_cut {order : ByteOrder} {origin : Files Bytes UInt8} {request : Request}
    {system : System} (inv : SessionInv order origin request system) (up down : Nat) :
    SessionInv order origin request
      { system with up := system.up.cut up, down := system.down.cut down } := by
  constructor
  case name => exact inv.name
  case file => exact inv.file
  case named => exact inv.named
  case old => exact inv.old
  case together => rfl
  case ordered => exact inv.ordered
  case sending => exact fun held => nomatch held
  case receiving => exact receiving_link inv.receiving rfl fun dead => Link.dead_cut dead up
  case answered => exact fun held => nomatch held
  case waiting => exact inv.waiting

/-! The client's steps. -/

/-- While the connection holds, the client is told the offset that was sent. -/
theorem offset_received {order : ByteOrder} {origin : Files Bytes UInt8} {request : Request}
    {system : System} {data : Bytes} {down : Link UInt8}
    (inv : SessionInv order origin request system) (held : system.up.broken = false)
    (got : system.down.recvAll 4 (some data) = some down) :
    data = order.encode request.offset := by
  obtain ⟨rfl, rfl, ready⟩ := Link.recvAll_data got
  -- the server closes its side only with the session, so the client waits for all four bytes
  have long : 4 ≤ system.down.arriving.length := by
    rcases ready with long | closed | broken
    · exact long
    · rw [inv.waiting] at closed
      cases closed
    · rw [inv.together, held] at broken
      cases broken
  have sent := inv.answered held
  have whole := system.down.whole (inv.together.trans held)
  have length := congrArg List.length whole
  rw [List.length_append] at length
  split at sent
  · rw [sent, List.length_nil] at length
    omega
  · rw [sent, IntBytes.length_encode] at length
    have none : system.down.taken = [] := List.eq_nil_of_length_eq_zero (by omega)
    rw [none, List.nil_append] at whole
    rw [List.take_of_length_le (by omega), whole, sent]

theorem payload_next {request : Request} {client : Client} {count : Nat}
    (file : client.file = request.file) (position : client.position = request.first + count) :
    client.next = (request.payload.drop count).take FileClient.BUFSIZE := by
  rw [Client.next, file, position, Request.payload, List.drop_drop]

theorem take_append_next {request : Request} {client : Client} {count : Nat}
    (file : client.file = request.file) (position : client.position = request.first + count) :
    request.payload.take count ++ client.next =
      request.payload.take (count + client.next.length) := by
  have next := payload_next file position
  have same : client.next = (request.payload.drop count).take client.next.length := by
    rw [next, List.take_eq_take_iff]
    simp
  rw [List.take_add, ← same]

theorem sending_client {order : ByteOrder} {origin : Files Bytes UInt8}
    {request : Request} {system : System} {event : FileClient.Event} {client : Client}
    {down : Link UInt8} {made : List FileClient.Call} (inv : SessionInv order origin request system)
    (whole : SendsWhole system (.client event))
    (turn : FileClient.Turn order system.client event client made)
    (took : FileClient.takes system.down event = some down)
    (held : system.up.broken = false) :
    Sending order request client (FileClient.transmit system.up made) := by
  have sending := inv.sending held
  cases turn with
  | unopened here => cases whole
  | opened here =>
      simpa [Sending, here] using sending
  | failed event how =>
      rcases how with ⟨_, rfl⟩ | ⟨_, rfl⟩ | ⟨_, rfl⟩ | ⟨block, here, rfl⟩
      · simp [SendsWhole, held] at whole
      · have got : system.down.recvAll 4 none = some down := took
        exact absurd got (Link.recvAll_held (inv.together.trans held))
      · simp [SendsWhole, held] at whole
      · simp [SendsWhole, held] at whole
  | named count here short =>
      simp only [Sending, here] at sending
      obtain rfl : count = NAMESIZE := by simpa [SendsWhole, held] using whole
      have all : (strncpy system.client.name NAMESIZE).take NAMESIZE =
          strncpy request.name NAMESIZE := by
        rw [inv.name, List.take_of_length_le (Nat.le_of_eq (CBuffer.strncpy_length ..))]
      simp only [Sending, FileClient.transmit_send, all, Link.send_sent held, sending.1,
        List.nil_append, Link.send_closed, sending.2, and_self]
  | told data here fits =>
      simp only [Sending, here] at sending
      obtain rfl := offset_received inv held took
      simp only [Sending, FileClient.transmit_starts, sending.1, sending.2,
        IntBytes.decode_store, inv.file, Request.announced, and_self]
  | announced count here short =>
      simp only [Sending, here] at sending
      obtain ⟨sent, opened, offset, total, position⟩ := sending
      obtain rfl : count = 4 := by simpa [SendsWhole, held] using whole
      have all : (order.encode system.client.totalbytes).take 4 =
          order.encode request.announced := by
        rw [total, List.take_of_length_le (Nat.le_of_eq (IntBytes.length_encode ..))]
      refine ⟨?_, 0, ?_, ?_⟩
      · rw [FileClient.transmit_send, Link.send_closed, opened]
      · simp only [position, offset, Request.first, Nat.add_zero]
      · rw [FileClient.transmit_send, Link.send_sent held, all, sent, List.take_zero,
          List.append_nil, Request.header]
  | ended here none =>
      simp only [Sending, here] at sending
      obtain ⟨_, count, position, sent⟩ := sending
      rw [payload_next inv.file position, List.take_eq_nil_iff] at none
      have past : request.payload.length ≤ count := by
        simpa [FileClient.BUFSIZE] using none
      have all : system.up.sent = request.stream order := by
        rw [sent, List.take_of_length_le past, Request.stream]
      split <;> exact all
  | loaded here more =>
      simp only [Sending, here] at sending
      obtain ⟨opened, count, position, sent⟩ := sending
      refine ⟨opened, count + system.client.next.length, ?_, ?_⟩
      · simp only [position]
        omega
      · rw [FileClient.transmit_nil, sent, List.append_assoc, take_append_next inv.file position]
  | sent block count here short =>
      simp only [Sending, here] at sending
      obtain ⟨opened, place, position, sent⟩ := sending
      obtain rfl : count = block.length := by
        simpa [SendsWhole, held, Client.block, here] using whole
      refine ⟨?_, place, position, ?_⟩
      · rw [FileClient.transmit_send, Link.send_closed, opened]
      · rw [FileClient.transmit_send, Link.send_sent held, List.take_length, sent]

theorem session_client {order : ByteOrder} {origin : Files Bytes UInt8} {request : Request}
    {system : System} {event : FileClient.Event} {client : Client} {down : Link UInt8}
    {made : List FileClient.Call} (inv : SessionInv order origin request system)
    (whole : SendsWhole system (.client event))
    (turn : FileClient.Turn order system.client event client made)
    (took : FileClient.takes system.down event = some down) :
    SessionInv order origin request
      { system with
        client := client
        down := down
        up := FileClient.transmit system.up made } := by
  obtain ⟨name, file⟩ := FileClient.turn_keeps turn
  obtain ⟨sent, closed, broken⟩ := FileClient.takes_keeps took
  have same := FileClient.transmit_broken system.up made
  constructor
  case name => exact name.trans inv.name
  case file => exact file.trans inv.file
  case named => exact inv.named
  case old => exact inv.old
  case together => exact broken.trans (inv.together.trans same.symm)
  case ordered =>
      cases state : system.up.broken with
      | true =>
          rw [(FileClient.transmit_of_broken state made).1]
          exact inv.ordered
      | false => exact sending_ordered (sending_client inv whole turn took state)
  case sending => exact fun held => sending_client inv whole turn took (same.symm.trans held)
  case receiving =>
      apply receiving_link inv.receiving (FileClient.transmit_taken ..)
      intro dead
      exact ⟨same.trans dead.1, (FileClient.transmit_of_broken dead.1 made).2.trans dead.2⟩
  case answered => exact fun held => sent.trans (inv.answered (same.symm.trans held))
  case waiting => exact closed.trans inv.waiting

/-! The server's steps. -/

/-- If the stream has ended and the connection holds, everything was sent. -/
theorem stream_sent {order : ByteOrder} {origin : Files Bytes UInt8} {request : Request}
    {system : System} (inv : SessionInv order origin request system)
    (held : system.up.broken = false)
    (ended : system.up.closed = true ∨ system.up.broken = true) :
    system.up.sent = request.stream order := by
  have closed : system.up.closed = true := ended.resolve_right (by simp [held])
  have sending := inv.sending held
  unfold Sending at sending
  split at sending <;> simp_all

/-- Within the header a short receive means that the connection was cut. -/
theorem short_broken {order : ByteOrder} {origin : Files Bytes UInt8} {request : Request}
    {system : System} {up : Link UInt8} {data : Bytes} {count : Nat}
    (inv : SessionInv order origin request system)
    (got : system.up.recvAll count (some data) = some up) (short : data.length < count)
    (inside : system.up.taken.length + count ≤ NAMESIZE + 4) : Link.Dead up := by
  obtain ⟨empty, ended⟩ := Link.recvAll_short got short
  obtain ⟨_, _, broken⟩ := Link.recvAll_sent got
  refine ⟨?_, empty⟩
  rw [broken]
  by_contra held
  rw [Bool.not_eq_true] at held
  have all := stream_sent inv held ended
  have whole := congrArg List.length (system.up.whole held)
  obtain ⟨rfl, rfl, _⟩ := Link.recvAll_data got
  -- all of the stream was sent and taken, and the header alone is longer than that
  have header := request.length_header order
  rw [all, Request.stream, List.length_append, List.length_append, header] at whole
  rw [List.length_take] at short
  omega

theorem piece_eq {order : ByteOrder} {origin : Files Bytes UInt8} {request : Request}
    {system : System} {up : Link UInt8} {data : Bytes} {count : Nat}
    (inv : SessionInv order origin request system)
    (got : system.up.recvAll count (some data) = some up) :
    data = ((request.stream order).drop system.up.taken.length).take data.length :=
  List.prefix_iff_eq_take.mp (Link.recvAll_piece inv.ordered got)

theorem lost_served {link rest : Link UInt8} {event : FileServer.Event} (lost : Lost link)
    (took : FileServer.takes link event = some rest) : Lost rest := by
  obtain ⟨sent, closed, broken⟩ := FileServer.takes_keeps took
  have dead : ∀ count result, link.recvAll count result = some rest → Lost rest := by
    intro count result got
    obtain ⟨stays, none | empty⟩ := Link.recvAll_dead lost.1 got
    · subst none
      obtain ⟨rfl, _⟩ := Link.recvAll_error got
      exact lost
    · subst empty
      refine ⟨stays, ?_⟩
      rw [Link.recvAll_taken got, List.append_nil]
      exact lost.2
  cases event with
  | recvName result => exact dead FileServer.NAMESIZE result took
  | recvSize result => exact dead 4 result took
  | recvData result => exact dead FileServer.BUFSIZE result took
  | _ =>
      cases took
      exact lost

theorem key_ne_nil {request : Request} (named : request.name ≠ []) : request.key ≠ [] := by
  intro empty
  have zero := congrArg List.length empty
  rw [Request.key, List.length_take, List.length_nil, NAMESIZE] at zero
  exact named (List.eq_nil_of_length_eq_zero (by omega))

theorem named_name {order : ByteOrder} {origin : Files Bytes UInt8} {request : Request}
    {system : System} {up : Link UInt8} {data : Bytes}
    (inv : SessionInv order origin request system) (first : system.up.taken = [])
    (got : system.up.recvAll NAMESIZE (some data) = some up) :
    Lost up ∨ cstring data = request.key ∧ up.taken.length = NAMESIZE := by
  have taken : up.taken = data := by rw [Link.recvAll_taken got, first, List.nil_append]
  rcases Nat.lt_or_eq_of_le (Link.recvAll_length got) with short | full
  · left
    refine ⟨short_broken inv got short ?_, ?_⟩
    · rw [first, List.length_nil]
      omega
    · rw [taken]
      omega
  · right
    refine ⟨?_, by rw [taken, full]⟩
    have piece := piece_eq inv got
    rw [first, List.length_nil, List.drop_zero, full,
      Request.stream_take_name request order (Nat.le_refl _)] at piece
    rw [piece, CBuffer.cstring_strncpy_take inv.named.2 (Nat.le_refl _), Request.key]

theorem absent_offset {order : ByteOrder} {origin : Files Bytes UInt8} {request : Request}
    {system : System} (inv : SessionInv order origin request system)
    (missing : FileServer.search_file origin request.key = false) : request.offset = 0 := by
  have absent : origin request.key = none := by
    simpa [FileServer.search_file, key_ne_nil inv.named.1] using missing
  rw [Request.offset, inv.old, contents, absent]
  rfl

theorem sized_announced {order : ByteOrder} {origin : Files Bytes UInt8} {request : Request}
    {system : System} {up : Link UInt8} {data : Bytes} (memory : CBuffer.Memory 4)
    (inv : SessionInv order origin request system) (length : system.up.taken.length = NAMESIZE)
    (fits : data.length ≤ 4) (got : system.up.recvAll 4 (some data) = some up) :
    Lost up ∨ up.taken.length = NAMESIZE + 4 ∧
      order.decode (memory.store data fits) = request.announced := by
  have taken := congrArg List.length (Link.recvAll_taken got)
  rw [List.length_append, length] at taken
  rcases Nat.lt_or_eq_of_le fits with short | full
  -- a short size leaves old bytes in `totalbytes`, but then the connection is gone
  · refine .inl ⟨short_broken inv got short (by rw [length]), ?_⟩
    omega
  · refine .inr ⟨by omega, ?_⟩
    have piece := piece_eq inv got
    rw [length, full, Request.stream_drop_name,
      List.take_left' (IntBytes.length_encode ..)] at piece
    subst piece
    exact IntBytes.decode_store _ _ _ fits

theorem receiving_server {order : ByteOrder} {origin : Files Bytes UInt8} {request : Request}
    {system : System} {event : FileServer.Event} {server : FileServer.Server}
    {up : Link UInt8} {made : List FileServer.Call}
    (inv : SessionInv order origin request system) (other : event ≠ .accept)
    (turn : FileServer.Turn order system.server event server made)
    (took : FileServer.takes system.up event = some up)
    (busy : server.pc ≠ .accepting ∧ server.pc ≠ .exited) :
    Receiving order origin request server up := by
  have receiving := inv.receiving
  cases turn with
  | accepted here => exact absurd rfl other
  | acceptFailed here => exact absurd rfl busy.2
  | nameFailed here => exact absurd rfl busy.1
  | named data here fits =>
      simp only [Receiving, here] at receiving
      obtain ⟨files, first⟩ := receiving
      have place := named_name inv first took
      rw [← FileServer.storeName_name system.server fits] at place
      cases found : FileServer.search_file system.server.files
          (FileServer.storeName system.server data fits).name with
      | true =>
          simp only [Receiving, if_true]
          exact ⟨files, place⟩
      | false =>
          simp only [Receiving, Bool.false_eq_true, if_false]
          refine ⟨files, place.imp_right ?_⟩
          rintro ⟨name, length⟩
          rw [name, files] at found
          exact ⟨name, length, (absent_offset inv found).symm⟩
  | unreadable here => exact absurd rfl busy.1
  | measured here =>
      simp only [Receiving, here] at receiving
      obtain ⟨files, place⟩ := receiving
      cases took
      refine ⟨files, place.imp_right ?_⟩
      rintro ⟨name, length⟩
      exact ⟨name, length, by simp only [Request.offset, inv.old, files, name]⟩
  | offsetFailed here => exact absurd rfl busy.1
  | offsetSent count here short =>
      simp only [Receiving, here] at receiving
      obtain ⟨files, place⟩ := receiving
      cases took
      exact ⟨files, place.imp_right fun aligned => ⟨aligned.1, aligned.2.1⟩⟩
  | sizeFailed here => exact absurd rfl busy.1
  | sized data here fits =>
      simp only [Receiving, here] at receiving
      obtain ⟨files, place⟩ := receiving
      refine ⟨files, ?_⟩
      rcases place with lost | ⟨name, length⟩
      · exact .inl (lost_served lost took)
      · exact (sized_announced _ inv length fits took).imp_right fun sized => ⟨name, sized⟩
  | unopened here => exact absurd rfl busy.1
  | opened here named =>
      simp only [Receiving, here] at receiving
      obtain ⟨files, place⟩ := receiving
      cases took
      rcases place with lost | ⟨name, length, announced⟩
      · exact .inl ⟨lost, system.server.name, by rw [files]⟩
      · refine .inr ⟨name, announced, 0, length, rfl, ?_⟩
        rw [files, name, List.take_zero]
  | ended result printed here last => exact absurd rfl busy.1
  | received block here more short =>
      simp only [Receiving, here] at receiving
      have got : system.up.recvAll FileServer.BUFSIZE (some block) = some up := took
      rcases receiving with ⟨lost, _⟩ | ⟨name, announced, count, length, total, files⟩
      -- from a connection that is gone no data comes
      · obtain ⟨_, none | empty⟩ := Link.recvAll_dead lost.1 got
        · cases none
        · exact absurd (Option.some.inj empty) more
      · refine ⟨name, announced, count, ?_, total, files, ?_⟩
        · rw [Link.recvAll_taken got, List.length_append, length]
        · have piece := piece_eq inv got
          rw [length, Request.stream_drop_header] at piece
          rw [List.take_add, ← piece]
  | stored block here =>
      simp only [Receiving, here] at receiving
      cases took
      obtain ⟨name, announced, count, length, total, files, joined⟩ := receiving
      refine .inr ⟨name, announced, count + block.length, ?_, ?_, ?_⟩
      · rw [length, Nat.add_assoc]
      · rw [total, BitVec.ofNat_add]
      · rw [files, name, Directory.append_append, joined]
  | storedPart block written here part => exact absurd rfl busy.1

theorem answered_server {order : ByteOrder} {origin : Files Bytes UInt8} {request : Request}
    {system : System} {event : FileServer.Event} {server : FileServer.Server}
    {made : List FileServer.Call} (inv : SessionInv order origin request system)
    (whole : SendsWhole system (.server event)) (other : event ≠ .accept)
    (turn : FileServer.Turn order system.server event server made)
    (busy : server.pc ≠ .accepting ∧ server.pc ≠ .exited) :
    (FileServer.transmit system.down made).closed = false ∧
      (FileServer.transmit system.down made).broken = system.down.broken ∧
        (system.up.broken = false → (FileServer.transmit system.down made).sent =
          if silent server.pc then [] else order.encode request.offset) := by
  have receiving := inv.receiving
  have answered := inv.answered
  cases turn with
  | accepted here => exact absurd rfl other
  | acceptFailed here => exact absurd rfl busy.2
  | named data here fits =>
      refine ⟨inv.waiting, rfl, fun held => ?_⟩
      rw [here] at answered
      have quiet := answered held
      split <;> exact quiet
  | offsetSent count here short =>
      simp only [Receiving, here] at receiving
      refine ⟨?_, ?_, fun held => ?_⟩
      · rw [FileServer.transmit_send, Link.send_closed, inv.waiting]
      · rw [FileServer.transmit_send, Link.send_broken]
      · obtain rfl : count = 4 := by simpa [SendsWhole, held] using whole
        have place : system.server.currbytes = request.offset := by
          rcases receiving.2 with lost | ⟨_, _, offset⟩
          · rw [lost.1.1] at held
            cases held
          · exact offset
        rw [here] at answered
        rw [FileServer.transmit_send, Link.send_sent (inv.together.trans held), answered held,
          place, List.take_of_length_le (Nat.le_of_eq (IntBytes.length_encode ..))]
        rfl
  | measured here =>
      rw [here] at answered
      exact ⟨inv.waiting, rfl, answered⟩
  | sized data here fits =>
      rw [here] at answered
      exact ⟨inv.waiting, rfl, answered⟩
  | opened here named =>
      rw [here] at answered
      exact ⟨inv.waiting, rfl, answered⟩
  | received block here more short =>
      rw [here] at answered
      exact ⟨inv.waiting, rfl, answered⟩
  | stored block here =>
      rw [here] at answered
      exact ⟨inv.waiting, rfl, answered⟩
  | _ => exact absurd rfl busy.1

theorem session_server {order : ByteOrder} {origin : Files Bytes UInt8} {request : Request}
    {system : System} {event : FileServer.Event} {server : FileServer.Server}
    {up : Link UInt8} {made : List FileServer.Call}
    (inv : SessionInv order origin request system)
    (whole : SendsWhole system (.server event)) (other : event ≠ .accept)
    (turn : FileServer.Turn order system.server event server made)
    (took : FileServer.takes system.up event = some up)
    (busy : server.pc ≠ .accepting ∧ server.pc ≠ .exited) :
    SessionInv order origin request
      { system with
        server := server
        up := up
        down := FileServer.transmit system.down made } := by
  obtain ⟨sent, closed, broken⟩ := FileServer.takes_keeps took
  obtain ⟨waiting, holds, answered⟩ := answered_server inv whole other turn busy
  constructor
  case name => exact inv.name
  case file => exact inv.file
  case named => exact inv.named
  case old => exact inv.old
  case together => exact holds.trans (inv.together.trans broken.symm)
  case ordered => exact sent.symm ▸ inv.ordered
  case sending =>
      intro held
      have sending := inv.sending (broken.symm.trans held)
      unfold Sending at sending ⊢
      simpa only [sent, closed] using sending
  case receiving => exact receiving_server inv other turn took busy
  case answered => exact fun held => answered (broken.symm.trans held)
  case waiting => exact waiting

def request (files : Files Bytes UInt8) (name file : Bytes) : Request where
  name := name
  file := file
  old := contents files (name.take NAMESIZE)

theorem session_start (order : ByteOrder) (server : FileServer.Server) {name : Bytes}
    (file : Bytes) (memory : Memory 4) (named : name ≠ [] ∧ ∀ byte ∈ name, byte ≠ 0) :
    SessionInv order server.files (request server.files name file)
      (session server name file memory) := by
  constructor
  case named => exact named
  case ordered => exact List.nil_prefix
  case sending => exact fun _ => ⟨rfl, rfl⟩
  case receiving => exact ⟨rfl, rfl⟩
  all_goals intros; rfl

end NetworkTest.Upload
