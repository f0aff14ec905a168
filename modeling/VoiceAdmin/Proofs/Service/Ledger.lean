import Mathlib
import VoiceAdmin.Proofs.Service.Pushes
import VoiceAdmin.Proofs.Service.TableLog

namespace VoiceAdmin.Service

namespace AdminState

variable {s : AdminState}

/-- The ids of the connected clients and of the bans. -/
def holders (s : AdminState) : List String := s.clients.roster.ids ++ s.bans.map Ban.id

/-- Whether an operation kicks a client. -/
def kicks (s : AdminState) : Operation → Bool
  | .execute _ (.kick client _) => (s.clients.remove client).1.isSome
  | _ => false

/-- Whether an operation lifts a ban. -/
def unbans (s : AdminState) : Operation → Bool
  | .execute _ (.unban id) => (s.removeBan id).1.isSome
  | _ => false

/-- The id that an operation gives to a new client. -/
def issues (s : AdminState) : Operation → Option String
  | .connect client => (s.connect client).1
  | _ => none

/-- The state with one more client, who gets the next id. -/
def letIn (s : AdminState) (client : Client) : AdminState :=
  { s with
    clients :=
      { s.clients with
        attached := s.clients.attached.insert (toString s.clients.nextId.toNat) client
        nextId := s.clients.nextId + 1 } }

/-- What an operation does to the ids that are held: a new one joins, or some leave for good. -/
inductive Moves (s : AdminState) (op : Operation) : Prop
  | joins (client : Client) (room : s.clients.size < s.clients.capacity)
      (issued : s.issues op = some (toString s.clients.nextId.toNat))
      (state : (s.perform op).state = s.letIn client)
      (stay : s.kicks op = false ∧ s.unbans op = false)
  | leave (gone : List String) (issued : s.issues op = none)
      (held : s.holders.Perm (gone ++ (s.perform op).state.holders))
      (size : (s.perform op).state.clients.size ≤ s.clients.size)
      (capacity : (s.perform op).state.clients.capacity = s.clients.capacity)
      (nextId : (s.perform op).state.clients.nextId = s.clients.nextId)
      (count : gone.length = (s.kicks op).toNat + (s.unbans op).toNat)

theorem Moves.idle {op : Operation} (issued : s.issues op = none)
    (clients : (s.perform op).state.clients = s.clients) (bans : (s.perform op).state.bans = s.bans)
    (kicks : s.kicks op = false) (unbans : s.unbans op = false) : s.Moves op := by
  refine .leave [] issued ?_ ?_ ?_ ?_ ?_
  · rw [holders, holders, clients, bans]
    exact .refl _
  · rw [clients]
  · rw [clients]
  · rw [clients]
  · rw [kicks, unbans]
    rfl

/-- A client who leaves the table becomes a ban or is gone. -/
theorem holders_erase {client : String} (h : client ∈ s.clients.roster.ids) :
    s.holders.Perm (client :: ((s.clients.roster.erase client).ids ++ s.bans.map Ban.id)) :=
  (Keyed.ids_erase_perm h).append_right _

theorem connect_moves (client : Client) : s.Moves (.connect client) := by
  by_cases h : s.clients.size < s.clients.capacity
  · have hadd := ClientTable.add_room h client
    refine .joins client h ?_ ?_ ⟨rfl, rfl⟩
    · simp only [issues, connect, hadd]
    · simp only [perform, connect, hadd, letIn]
  · have hfull := s.connect_full (Nat.not_lt.mp h) client
    refine .idle ?_ ?_ ?_ rfl rfl
    · simp only [issues, hfull]
    · simp only [perform, hfull]
    · simp only [perform, hfull]

theorem kick_moves (id client reason : String) : s.Moves (.execute id (.kick client reason)) := by
  by_cases h : client ∈ s.clients.roster.ids
  · obtain ⟨kicked, hr⟩ := ClientTable.remove_present h
    refine .leave [client] rfl ?_ ?_ ?_ ?_ ?_
    all_goals simp only [perform, execute, hr, kicks, unbans]
    · have hgone := holders_erase h
      rwa [← ClientTable.roster_erase] at hgone
    · exact s.clients.size_erase_le client
    · rfl
  · have hr := ClientTable.remove_absent h
    refine .idle rfl ?_ ?_ ?_ rfl
    all_goals simp only [perform, execute, hr, notFound, kicks, Option.isSome_none]

theorem ban_moves (id client reason : String) : s.Moves (.execute id (.ban client reason)) := by
  by_cases h : client ∈ s.clients.roster.ids
  · obtain ⟨banned, hr⟩ := ClientTable.remove_present h
    refine .leave [] rfl ?_ ?_ ?_ ?_ rfl
    all_goals simp only [perform, execute, hr]
    · refine (holders_erase h).trans ?_
      simp only [holders, ClientTable.roster_erase, List.map_append, List.map_cons, List.map_nil, List.nil_append,
        ← List.append_assoc]
      exact (List.perm_append_singleton client _).symm
    · exact s.clients.size_erase_le client
  · have hr := ClientTable.remove_absent h
    refine .idle rfl ?_ ?_ rfl rfl
    all_goals simp only [perform, execute, hr, notFound]

theorem unban_moves (id banned : String) : s.Moves (.execute id (.unban banned)) := by
  by_cases h : banned ∈ s.bans.map Ban.id
  · obtain ⟨ban, before, after, hbans, rfl, hr⟩ := removeBan_present h
    refine .leave [ban.id] rfl ?_ ?_ ?_ ?_ ?_
    all_goals simp only [perform, execute, hr, kicks, unbans]
    · simp only [holders, hbans, List.map_append, List.map_cons]
      exact (List.perm_middle.append_left _).trans List.perm_middle
    · exact Nat.le_refl _
    · rfl
  · have hr := removeBan_absent h
    refine .idle rfl ?_ ?_ rfl ?_
    all_goals simp only [perform, execute, hr, notFound, unbans, Option.isSome_none]

theorem mute_moves {op : Operation} {client : String} (id : String) (muted : Bool)
    (hop : s.perform op = s.mute id client muted) (issued : s.issues op = none)
    (kicks : s.kicks op = false) (unbans : s.unbans op = false) : s.Moves op := by
  by_cases h : client ∈ s.clients.roster.ids
  · have hm := ClientTable.setMuted_present h muted
    refine .leave [] issued ?_ ?_ ?_ ?_ (by rw [kicks, unbans]; rfl)
    all_goals simp only [hop, mute, hm]
    · simp only [holders, ClientTable.roster_setMuted, Keyed.ids_modify, List.nil_append]
      exact .refl _
    · exact (s.clients.size_setMuted client muted).le
  · have hm := ClientTable.setMuted_absent h muted
    refine .idle issued ?_ ?_ kicks unbans
    all_goals simp only [hop, mute, hm, notFound]

theorem updateCoalition_moves (id : String) (coalition : Coalition) :
    s.Moves (.execute id (.updateCoalition coalition)) := by
  by_cases h : coalition.name ∈ s.coalitions.map Coalition.name
  · refine .idle rfl ?_ ?_ rfl rfl
    all_goals simp only [perform, execute, updateCoalition_present h, coalitionsChanged]
  · refine .idle rfl ?_ ?_ rfl rfl
    all_goals simp only [perform, execute, updateCoalition_absent h]

theorem removeCoalition_moves (id : String) (coalition : Coalition) :
    s.Moves (.execute id (.removeCoalition coalition)) := by
  by_cases h : coalition ∈ s.coalitions
  · refine .idle rfl ?_ ?_ rfl rfl
    all_goals simp only [perform, execute, removeCoalition_present h, coalitionsChanged]
  · refine .idle rfl ?_ ?_ rfl rfl
    all_goals simp only [perform, execute, removeCoalition_absent h]

theorem perform_moves (s : AdminState) (op : Operation) : s.Moves op := by
  cases op with
  | connect client => exact s.connect_moves client
  | setStatus status => exact .idle rfl rfl rfl rfl rfl
  | execute id command =>
    cases command with
    | kick client reason => exact s.kick_moves id client reason
    | ban client reason => exact s.ban_moves id client reason
    | unban banned => exact s.unban_moves id banned
    | mute client => exact mute_moves id true rfl rfl rfl rfl
    | unmute client => exact mute_moves id false rfl rfl rfl rfl
    | updateCoalition coalition => exact s.updateCoalition_moves id coalition
    | removeCoalition coalition => exact s.removeCoalition_moves id coalition
    | startServer | stopServer | addCoalition | saveSettings | saveFrequencies | notify =>
      exact .idle rfl rfl rfl rfl rfl

theorem holders_letIn (h : toString s.clients.nextId.toNat ∉ s.clients.roster.ids) (client : Client) :
    (s.letIn client).holders.Perm (toString s.clients.nextId.toNat :: s.holders) := by
  rw [holders, letIn, ClientTable.roster_insert]
  exact (Keyed.ids_insert h client).append_right _

end AdminState

/-- A service with what it gave out and took back for good. -/
structure Ledger where
  server : Server
  /-- The ids given to new clients, the first one first. -/
  issued : List String := []
  kicked : Nat := 0
  unbanned : Nat := 0

namespace Ledger

def record (l : Ledger) (op : Operation) : Ledger where
  server := l.server.perform op
  issued := l.issued ++ (l.server.state.issues op).toList
  kicked := l.kicked + (l.server.state.kicks op).toNat
  unbanned := l.unbanned + (l.server.state.unbans op).toNat

def run (server : Server) (ops : List Operation) : Ledger := ops.foldl record { server }

theorem run_append (server : Server) (ops : List Operation) (op : Operation) :
    run server (ops ++ [op]) = (run server ops).record op := by
  simp [run, List.foldl_append]

theorem record_state (l : Ledger) (op : Operation) :
    (l.record op).server.state = (l.server.state.perform op).state :=
  l.server.adopt_state _

/-- The ids given out so far are the texts of the first numbers, and each one that was not given up is
held by one client or by one ban. Nothing looks whether an id is taken, neither for a new client nor for a
new ban. That ids are distinct rests on their numbers: each is below the next one to be given out. -/
structure Balanced (l : Ledger) (most : Nat) : Prop where
  capacity : l.server.state.clients.capacity = most
  size : l.server.state.clients.size ≤ most
  issued : l.issued = (List.range l.issued.length).map fun n => toString (n + 1)
  next : l.server.state.clients.nextId.toNat = l.issued.length + 1
  distinct : l.server.state.holders.Nodup
  known : ∀ id ∈ l.server.state.holders, id ∈ l.issued
  total : l.issued.length = l.server.state.holders.length + l.kicked + l.unbanned

namespace Balanced

variable {l : Ledger} {most : Nat}

theorem start {server : Server} (h : server.state = .empty most ∨ server.state = .seeded most) :
    Balanced { server } most := by
  have hc : server.state.clients = { capacity := most } := by
    rcases h with h | h <;> rw [h] <;> rfl
  have hb : server.state.bans = [] := by
    rcases h with h | h <;> rw [h] <;> rfl
  have hholders : server.state.holders = [] := by
    rw [AdminState.holders, hc, hb]
    rfl
  constructor
  · rw [hc]
  · rw [hc]
    exact Nat.zero_le most
  · rfl
  · rw [hc]
    rfl
  · rw [hholders]
    exact List.nodup_nil
  · rw [hholders]
    exact nofun
  · rw [hholders]
    rfl

theorem nodup (h : l.Balanced most) : l.issued.Nodup := by
  rw [h.issued]
  refine List.nodup_range.map fun n m he => ?_
  have := Nat.repr_inj.mp he
  omega

/-- The next id was not given out yet. -/
theorem fresh (h : l.Balanced most) : toString l.server.state.clients.nextId.toNat ∉ l.issued := by
  rw [h.issued, h.next]
  exact ClientTable.number_fresh _

theorem fresh_holder (h : l.Balanced most) :
    toString l.server.state.clients.nextId.toNat ∉ l.server.state.holders :=
  fun hm => h.fresh (h.known _ hm)

theorem joins (h : l.Balanced most) {op : Operation} {client : Client}
    (room : l.server.state.clients.size < l.server.state.clients.capacity)
    (issued : l.server.state.issues op = some (toString l.server.state.clients.nextId.toNat))
    (state : (l.record op).server.state = l.server.state.letIn client)
    (stay : l.server.state.kicks op = false ∧ l.server.state.unbans op = false)
    (hfew : (l.record op).issued.length < UInt32.size - 1) : (l.record op).Balanced most := by
  have hissued : (l.record op).issued =
      l.issued ++ [toString l.server.state.clients.nextId.toNat] := by
    simp [Ledger.record, issued]
  have hlength : (l.record op).issued.length = l.issued.length + 1 := by
    simp [hissued]
  have hnext := ClientTable.toNat_next h.next (hlength ▸ hfew)
  have hroster : toString l.server.state.clients.nextId.toNat ∉ l.server.state.clients.roster.ids :=
    fun hm => h.fresh_holder (List.mem_append_left _ hm)
  have hperm := AdminState.holders_letIn hroster client
  rw [← state] at hperm
  constructor
  · rw [state]
    exact h.capacity
  · have := h.capacity
    rw [state]
    simp only [AdminState.letIn, ClientTable.size_insert hroster]
    omega
  · rw [hlength, List.range_succ, List.map_append, ← h.issued, hissued, h.next]
    rfl
  · rw [state, hlength, ← h.next]
    exact hnext
  · exact hperm.nodup_iff.mpr (List.nodup_cons.mpr ⟨h.fresh_holder, h.distinct⟩)
  · intro id hid
    rw [hissued]
    rcases List.mem_cons.mp (hperm.mem_iff.mp hid) with rfl | hid
    · exact List.mem_append_right _ (List.mem_singleton_self _)
    · exact List.mem_append_left _ (h.known id hid)
  · have := h.total
    have hheld := hperm.length_eq
    rw [hlength, hheld, List.length_cons]
    simp only [Ledger.record, stay, Bool.toNat_false]
    omega

theorem leave (h : l.Balanced most) {op : Operation} {gone : List String}
    (issued : l.server.state.issues op = none)
    (held : l.server.state.holders.Perm (gone ++ (l.record op).server.state.holders))
    (size : (l.record op).server.state.clients.size ≤ l.server.state.clients.size)
    (capacity : (l.record op).server.state.clients.capacity = l.server.state.clients.capacity)
    (nextId : (l.record op).server.state.clients.nextId = l.server.state.clients.nextId)
    (count : gone.length =
      (l.server.state.kicks op).toNat + (l.server.state.unbans op).toNat) :
    (l.record op).Balanced most := by
  have hissued : (l.record op).issued = l.issued := by
    simp [Ledger.record, issued]
  constructor
  · rw [capacity, h.capacity]
  · exact size.trans h.size
  · rw [hissued]
    exact h.issued
  · rw [nextId, hissued]
    exact h.next
  · exact (List.nodup_append.mp (held.nodup h.distinct)).2.1
  · intro id hid
    rw [hissued]
    exact h.known id (held.mem_iff.mpr (List.mem_append_right _ hid))
  · have := h.total
    have := held.length_eq
    rw [List.length_append] at this
    rw [hissued]
    simp only [Ledger.record_state] at *
    simp only [Ledger.record]
    omega

theorem record (h : l.Balanced most) {op : Operation}
    (hfew : (l.record op).issued.length < UInt32.size - 1) : (l.record op).Balanced most := by
  cases l.server.state.perform_moves op with
  | joins client room issued state stay =>
    exact h.joins room issued ((l.record_state op).trans state) stay hfew
  | leave gone issued held size capacity nextId count =>
    rw [← l.record_state op] at held size capacity nextId
    exact h.leave issued held size capacity nextId count

end Balanced

theorem length_issued_le (l : Ledger) (op : Operation) :
    l.issued.length ≤ (l.record op).issued.length := by
  simp [record]

theorem run_balanced {most : Nat} {server : Server}
    (hstart : server.state = .empty most ∨ server.state = .seeded most) {ops : List Operation}
    (hfew : (run server ops).issued.length < UInt32.size - 1) : (run server ops).Balanced most := by
  induction ops using List.reverseRecOn with
  | nil => exact .start hstart
  | append_singleton ops op ih =>
    rw [run_append] at hfew ⊢
    exact (ih (Nat.lt_of_le_of_lt (length_issued_le _ op) hfew)).record hfew

/-- Nobody is lost and nobody is there twice. The table never holds more than it may; no id is given out
a second time; a ban is the only one of its id, and of nobody who is connected; and everyone who was let
in is connected, is banned, was kicked, or had a ban lifted. -/
theorem run_accounted {most : Nat} {server : Server}
    (hstart : server.state = .empty most ∨ server.state = .seeded most) {ops : List Operation}
    (hfew : (run server ops).issued.length < UInt32.size - 1) :
    let l := run server ops
    let s := l.server.state
    s.clients.size ≤ most ∧
      l.issued.Nodup ∧
      (s.bans.map Ban.id).Nodup ∧
      (∀ id ∈ s.clients.roster.ids, id ∉ s.bans.map Ban.id) ∧
      (∀ id ∈ s.clients.roster.ids ++ s.bans.map Ban.id, id ∈ l.issued) ∧
      l.issued.length = s.clients.size + s.bans.length + l.kicked + l.unbanned := by
  intro l s
  have h : l.Balanced most := run_balanced hstart hfew
  obtain ⟨-, hbans, hapart⟩ := List.nodup_append.mp h.distinct
  have hlength : s.holders.length = s.clients.size + s.bans.length := by
    rw [AdminState.holders, List.length_append, List.length_map, Keyed.length_ids, ClientTable.size_eq]
  refine ⟨h.size, h.nodup, hbans, fun id hr hb => hapart id hr id hb rfl, h.known, ?_⟩
  rw [h.total, hlength]

/-- A table of two: one client is refused, one is kicked and makes room for the third id, one is banned
and pardoned, and a ban hits nobody. -/
theorem run_accounted_for_three :
    let client : Client := ⟨"Viper", "F-16C", "Blue", false⟩
    let ops : List Operation :=
      [.connect client, .connect client, .connect client, .execute "a" (.kick "1" "afk"),
        .connect client, .execute "b" (.ban "2" "spam"), .execute "c" (.unban "2"),
        .execute "d" (.ban "2" "spam")]
    let l := run { state := .seeded 2 } ops
    l.issued = ["1", "2", "3"] ∧ l.issued.length = l.server.state.clients.size + 0 + 1 + 1 := by
  intro client ops l
  have hissued : l.issued = ["1", "2", "3"] := by decide +kernel
  have hfew : l.issued.length < UInt32.size - 1 := by
    rw [hissued]
    decide
  obtain ⟨-, -, -, -, -, htotal⟩ := run_accounted (.inr rfl) hfew
  refine ⟨hissued, htotal.trans ?_⟩
  decide +kernel

end Ledger

end VoiceAdmin.Service
