import PrimaryElection.Monitor
import PrimaryElection.Proofs.Codec
import PrimaryElection.Proofs.Conflicts

namespace PrimaryElection

namespace LogEntry

def conflictMessage : String := "Election failed: members advertise duplicate addresses"

theorem message_eq_conflictMessage_iff {entry : LogEntry} :
    entry.message = conflictMessage ↔ ∃ epoch report, entry = .conflict epoch report := by
  cases entry with
  | conflict epoch report => exact iff_of_true rfl ⟨epoch, report, rfl⟩
  | listenerFailed kind epoch failure =>
    refine iff_of_false ?_ (fun ⟨_, _, h⟩ => nomatch h)
    dsimp only [message]
    cases kind <;> decide
  | _ =>
    refine iff_of_false ?_ (fun ⟨_, _, h⟩ => nomatch h)
    dsimp only [message]
    decide

end LogEntry

def conflictRecords (groupId : Value) (events : List Event) : List (Log.Record Failure) :=
  (logsOf groupId events).filter fun record => record.message = LogEntry.conflictMessage

theorem conflictRecords_eq (groupId : Value) (events : List Event) :
    conflictRecords groupId events =
      (reports events).map fun e => (LogEntry.conflict e.1 e.2).record groupId := by
  unfold conflictRecords logsOf reports
  rw [List.filter_filterMap, List.map_filterMap]
  congr 1
  funext event
  cases event with
  | logged entry =>
    by_cases h : entry.message = LogEntry.conflictMessage
    · obtain ⟨epoch, report, rfl⟩ := LogEntry.message_eq_conflictMessage_iff.mp h
      exact Option.filter_some_pos (decide_eq_true h)
    · have hother : decide ((entry.record groupId).message = LogEntry.conflictMessage) = false :=
        decide_eq_false h
      rw [Option.filter_some, hother]
      cases entry with
      | conflict epoch report => exact (h rfl).elim
      | _ => rfl
  | _ => rfl

theorem conflictRecords_congr {groupId : Value} {events events' : List Event}
    (h : reports events' = reports events) :
    conflictRecords groupId events' = conflictRecords groupId events := by
  rw [conflictRecords_eq, conflictRecords_eq, h]

def conflictRecord (groupId : Value) (epoch : Int) (fields : List (String × Value)) : Log.Record Failure where
  level := .error
  source := LogEntry.source
  message := LogEntry.conflictMessage
  details := [("group_id", groupId), ("epoch", .int epoch),
    ("duplicates", .record (fields.map fun f => (f.1, f.2)))]

namespace Election

/--
The fields list the conflicts of a round: under the host and the port of each conflict there is one field, with
its members, and each field is there for one conflict.
-/
structure Lists (round : Roster Identity) (fields : List (String × Value)) : Prop where
  once : ∀ host port ids, (⟨host, port⟩, ids) ∈ conflicts round →
    fields.filter (fun f => f.1 = host ++ ":" ++ toString port) =
      [(host ++ ":" ++ toString port, .list (ids.map .text))]
  only : ∀ f ∈ fields, ∃! c, c ∈ conflicts round ∧ c.1.host ++ ":" ++ toString c.1.port = f.1

def fieldOf (c : Address × List MemberId) : String × Value := (c.1.toText, .list (c.2.map .text))

theorem record_conflictReport (groupId : Value) (epoch : Int) (round : Roster Identity) :
    (LogEntry.conflict epoch (conflictReport round)).record groupId =
      conflictRecord groupId epoch ((conflicts round).map fieldOf) := by
  simp only [LogEntry.record, LogEntry.details, entries_conflictReport, conflictRecord, List.map_map]
  rfl

theorem filter_conflicts {round : Roster Identity} {c : Address × List MemberId} (hc : c ∈ conflicts round) :
    (conflicts round).filter (fun c' => c'.1.toText = c.1.toText) = [c] := by
  have hcount : (conflicts round).count c = 1 :=
    List.count_eq_one_of_mem ((nodup_conflicts round).of_map _) hc
  rw [← List.replicate_one, ← hcount, ← List.filter_beq]
  apply List.filter_congr
  intro c' hc'
  rw [Bool.eq_iff_iff, decide_eq_true_iff, beq_iff_eq]
  exact ⟨conflict_eq_of_toText hc' hc, fun h => h ▸ rfl⟩

theorem lists_fieldOf (round : Roster Identity) : Lists round ((conflicts round).map fieldOf) where
  once host port ids hc := by
    rw [List.filter_map]
    exact congrArg (List.map fieldOf) (filter_conflicts hc)
  only f hf := by
    obtain ⟨c, hc, rfl⟩ := List.mem_map.mp hf
    exact ⟨c, ⟨hc, rfl⟩, fun c' hc' => conflict_eq_of_toText hc'.1 hc hc'.2⟩

end Election

theorem Outcome.failed_iff {o : Outcome} : o.failed = true ↔ o = .duplicateAddress := by
  cases o <;> simp [failed, status]

namespace Node

variable {epoch : Int} {leader : Value} {members : Roster Payload} {r : Run}

theorem gives_compute_conflict (hactive : r.node.phase ≠ .active) (hrevoking : r.node.phase ≠ .revoking)
    (hfails : Election.elect (readable members) leader.text? = .duplicateAddress) :
    Gives (compute epoch leader members) r fun payloads r' =>
      (∀ id ∈ members.keys, ∃ data, payloads.get? id = some data ∧
        Outcome.decode (.bytes data) = .ok .duplicateAddress) ∧
      reports r'.trace = reports r.trace ++ [(epoch, Election.conflictReport (readable members))] := by
  obtain ⟨data, hdata⟩ : ∃ data, Outcome.duplicateAddress.encode = .ok data := ⟨_, rfl⟩
  have hgives : Gives (compute epoch leader members) r fun payloads r' =>
      payloads = members.map (fun _ => data) ∧
      reports r'.trace = reports r.trace ++ verdicts epoch leader members := by
    apply gives_eq_of_after
    apply ((after_compute hactive hrevoking).and (after_compute_reports hactive hrevoking)).mono
    rintro result r' ⟨⟨hresult, -⟩, hreports⟩
    rw [hfails, hdata] at hresult
    exact ⟨hresult, hreports⟩
  apply hgives.mono
  rintro _ r' ⟨rfl, hreports⟩
  rw [verdicts, if_pos (Outcome.failed_iff.mpr hfails)] at hreports
  refine ⟨fun id hid => ⟨data, ?_, Outcome.decode_eq_ok_iff.mpr hdata⟩, hreports⟩
  exact (members.get?_map_const data id data).mpr ⟨hid, rfl⟩

theorem after_compute_unreported (h : r.node.phase = .active ∨ r.node.phase = .revoking ∨
      Election.elect (readable members) leader.text? ≠ .duplicateAddress) :
    After (compute epoch leader members) r fun _ r' => reports r'.trace = reports r.trace := by
  by_cases hrefused : r.node.phase = .active ∨ r.node.phase = .revoking
  · exact after_compute_refused_reports hrefused
  · obtain ⟨hactive, hrevoking⟩ := not_or.mp hrefused
    have hsettled := (h.resolve_left hactive).resolve_left hrevoking
    apply (after_compute_reports hactive hrevoking).mono
    intro _ r' hreports
    rw [hreports, verdicts, if_neg (mt Outcome.failed_iff.mp hsettled), List.append_nil]

/--
Whenever a round is computed, be it while a listener hears of another one, its conflicts are logged if
they decide it, in one record that lists all of them, and not otherwise. Addresses that differ are written
differently, whatever colons and digits their hosts have.
-/
theorem conflicts_logged (r : Run) (epoch : Int) (leader : Value) (members : Roster Payload) :
    let outcome := Election.elect (readable members) leader.text?
    let logged (s : Run) := conflictRecords r.node.config.groupId s.trace
    (r.node.phase ≠ .active → r.node.phase ≠ .revoking → outcome = .duplicateAddress →
      Gives (compute epoch leader members) r fun payloads r' =>
        (∀ id ∈ members.keys, ∃ data, payloads.get? id = some data ∧
          Outcome.decode (.bytes data) = .ok .duplicateAddress) ∧
        ∃ fields, logged r' = logged r ++ [conflictRecord r.node.config.groupId epoch fields] ∧
          Election.Lists (readable members) fields) ∧
    (r.node.phase = .active ∨ r.node.phase = .revoking ∨ outcome ≠ .duplicateAddress →
      After (compute epoch leader members) r fun _ r' => logged r' = logged r) ∧
    ∀ (host host' : String) (port port' : Nat),
      host ++ ":" ++ toString port = host' ++ ":" ++ toString port' → host = host' ∧ port = port' := by
  intro outcome logged
  refine ⟨fun hactive hrevoking hfails => ?_, fun h => ?_, fun host host' port port' h => ?_⟩
  · apply (gives_compute_conflict hactive hrevoking hfails).mono
    rintro payloads r' ⟨hsent, hreports⟩
    refine ⟨hsent, _, ?_, Election.lists_fieldOf (readable members)⟩
    dsimp only [logged]
    rw [conflictRecords_eq, hreports, List.map_append, List.map_singleton, Election.record_conflictReport,
      ← conflictRecords_eq]
  · exact (after_compute_unreported h).mono fun _ _ => conflictRecords_congr
  · have haddress : (⟨host, port⟩ : Address) = ⟨host', port'⟩ := Address.toText_injective h
    injection haddress with hhost hport
    exact ⟨hhost, hport⟩

def lookalikes : Roster Payload :=
  let submitted (i : Identity) : Payload := .bytes (i.encode.toOption.getD [])
  let near := submitted { host := "::1", port := 18, eligible := true }
  let far := submitted { host := "::1:1", port := 8, eligible := false }
  .ofList [("b", near), ("d", far), ("x", .bytes []), ("c", far), ("a", near)]

theorem conflicts_logged_lookalikes :
    let r : Run := { Session.start default {} with
      node := { (Session.start default {}).node with phase := .synced }
      trace := [.notified (.assigned .noCandidate 1)] }
    let groupId := r.node.config.groupId
    r.node.phase ≠ .active ∧ r.node.phase ≠ .revoking ∧
    Election.elect (readable lookalikes) (some "a") = .duplicateAddress ∧
    Gives (compute 2 (.text "a") lookalikes) r fun payloads r' =>
      (∃ data, payloads.get? "x" = some data ∧ Outcome.decode (.bytes data) = .ok .duplicateAddress) ∧
      ∃ fields, conflictRecords groupId r'.trace = [conflictRecord groupId 2 fields] ∧
        fields.filter (fun f => f.1 = "::1:18") = [("::1:18", .list [.text "a", .text "b"])] ∧
        fields.filter (fun f => f.1 = "::1:1:8") = [("::1:1:8", .list [.text "c", .text "d"])] := by
  intro r groupId
  have hactive : r.node.phase ≠ .active := by decide
  have hrevoking : r.node.phase ≠ .revoking := by decide
  have hfails : Election.elect (readable lookalikes) (some "a") = .duplicateAddress := by decide +kernel
  refine ⟨hactive, hrevoking, hfails, ?_⟩
  apply ((conflicts_logged r 2 (.text "a") lookalikes).1 hactive hrevoking hfails).mono
  rintro payloads r' ⟨hsent, fields, hlogged, hlists⟩
  have hnear := hlists.once "::1" 18 ["a", "b"] (by decide +kernel)
  have hfar := hlists.once "::1:1" 8 ["c", "d"] (by decide +kernel)
  exact ⟨hsent "x" (by decide +kernel), fields, hlogged, hnear, hfar⟩

end Node

end PrimaryElection
