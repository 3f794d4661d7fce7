import PicoLoader.Reboot.Scan

/-!
# What the search for a board does

The search takes the boards on the bus (`PicoLoader.Reboot.boardsOn`) one after the other, and stops
at the first that *qualifies*: one that can be opened, and has an interface to reboot it. It opens
every board up to that one (`PicoLoader.Reboot.opened`), whether or not this succeeds, and does
nothing else: it claims no interface, makes no transfer and uses up no response.

`openFirst?_spec` says so for any list of boards, by induction on the list; `find_of_listed` says it
for a bus whose devices can be listed.
-/

namespace PicoLoader.Reboot

open Usb

/-! ### The boards on a bus -/

namespace Board

/-- Whether the search stops at a board. -/
def qualifies (board : Board) : Bool :=
  board.device.openRefusal.isNone && board.interfaces.any

/-- What opening a board leaves in the trace. -/
def opening (board : Board) : Event := .opened board.number

end Board

/-- The boards on a bus, in the order of the bus. -/
def boardsOn (bus : Bus) : List Board :=
  bus.devices.zipIdx.filterMap fun (device, number) => Board.ofDevice? device number

/-- A board on a bus is a device in its place there, with the vendor id and a product id of its
chip family. -/
theorem mem_boardsOn_iff {bus : Bus} {board : Board} :
    board ∈ boardsOn bus ↔ bus.devices[board.number]? = some board.device ∧
      board.device.vendor = Chip.vendorId ∧
      Chip.ofProductId? board.device.product = some board.chip := by
  simp only [boardsOn, List.mem_filterMap, Prod.exists, List.mk_mem_zipIdx_iff_getElem?,
    Board.ofDevice?_eq_some_iff]
  constructor
  · rintro ⟨device, number, hlisted, ⟨hvendor, hproduct⟩, rfl, rfl⟩
    exact ⟨hlisted, hvendor, hproduct⟩
  · rintro ⟨hlisted, hvendor, hproduct⟩
    exact ⟨_, _, hlisted, ⟨hvendor, hproduct⟩, rfl, rfl⟩

/-! ### The boards that are opened -/

/-- The boards that the search opens: those before the first that qualifies, and this one. -/
def opened (boards : List Board) : List Board :=
  boards.takeWhile (!·.qualifies) ++ (boards.find? Board.qualifies).toList

/-- From one host to the other, boards were opened, one after the other, and nothing else was
done. -/
structure Opens (boards : List Board) (host host' : Host) : Prop where
  responses_eq : host'.responses = host.responses
  trace_eq : host'.trace = host.trace ++ boards.map Board.opening

section Opened

variable {board : Board} {boards : List Board}

theorem opened_cons_of_qualifies (h : board.qualifies = true) :
    opened (board :: boards) = [board] := by
  simp [opened, h]

theorem opened_cons_of_not_qualifies (h : board.qualifies = false) :
    opened (board :: boards) = board :: opened boards := by
  simp [opened, h]

/-- The board that the search stops at is the last that it opens. -/
theorem getLast?_opened (h : boards.find? Board.qualifies = some board) :
    (opened boards).getLast? = some board := by
  simp [opened, h]

/-- The search stops at a board that qualifies. -/
theorem openFirst?_cons_of_qualifies (h : board.qualifies = true) (host : Host) :
    ∃ log, openFirst? (board :: boards) host =
      (.ok (some board), ⟨host.responses, host.trace ++ [board.opening], log⟩) := by
  obtain ⟨hrefusal, hany⟩ : board.device.openRefusal = none ∧ board.interfaces.any = true := by
    simpa [Board.qualifies] using h
  refine ⟨host.log ++ [board.described], ?_⟩
  simp only [openFirst?, openDevice, Attempt.bind_apply, Attempt.result_apply, record,
    Attempt.change_apply, unlessRefused, hrefusal, Attempt.pure_apply, note, hany]
  rfl

/-- Any other board leaves its opening and a message, and the search goes on. -/
theorem openFirst?_cons_of_not_qualifies (h : board.qualifies = false) (host : Host) :
    ∃ log, openFirst? (board :: boards) host =
      openFirst? boards ⟨host.responses, host.trace ++ [board.opening], log⟩ := by
  cases hrefusal : board.device.openRefusal with
  | some text =>
    refine ⟨host.log ++ [board.refused (.host text)], ?_⟩
    simp only [openFirst?, openDevice, Attempt.bind_apply, Attempt.result_apply, record,
      Attempt.change_apply, unlessRefused, hrefusal, Attempt.fail_apply, note]
    rfl
  | none =>
    have hany : board.interfaces.any = false := by simpa [Board.qualifies, hrefusal] using h
    refine ⟨host.log ++ [board.described], ?_⟩
    simp only [openFirst?, openDevice, Attempt.bind_apply, Attempt.result_apply, record,
      Attempt.change_apply, unlessRefused, hrefusal, Attempt.pure_apply, note, hany]
    rfl

/-- **The search ends at the first board that qualifies**, if there is one, and opens the boards up
to it. -/
theorem openFirst?_spec (boards : List Board) (host : Host) :
    (openFirst? boards host).1 = .ok (boards.find? Board.qualifies) ∧
      Opens (opened boards) host (openFirst? boards host).2 := by
  induction boards generalizing host with
  | nil => exact ⟨rfl, rfl, (List.append_nil _).symm⟩
  | cons board boards ih =>
    cases hqualifies : board.qualifies with
    | true =>
      obtain ⟨log, hstep⟩ := openFirst?_cons_of_qualifies hqualifies host
      rw [hstep, opened_cons_of_qualifies hqualifies, List.find?_cons_of_pos hqualifies]
      exact ⟨rfl, rfl, rfl⟩
    | false =>
      obtain ⟨log, hstep⟩ := openFirst?_cons_of_not_qualifies hqualifies host
      obtain ⟨hresult, hresponses, htrace⟩ :=
        ih ⟨host.responses, host.trace ++ [board.opening], log⟩
      rw [hstep, opened_cons_of_not_qualifies hqualifies,
        List.find?_cons_of_neg (by simp [hqualifies])]
      exact ⟨hresult, hresponses, by simpa using htrace⟩

end Opened

/-! ### The search on a bus -/

section Find

variable {bus : Bus}

/-- A bus whose devices cannot be listed has no board opened. -/
theorem find_of_listRefusal {text : String} (h : bus.listRefusal = some text) (host : Host) :
    find bus host = (.error (.host text), host) := by
  simp only [find, devices, Attempt.bind_apply, unlessRefused, h, Attempt.fail_apply]

/-- **The search finds the first board on the bus that qualifies**, and otherwise tells whether
there is any board. -/
theorem find_of_listed (h : bus.listRefusal = none) (host : Host) :
    (find bus host).1 =
        (match (boardsOn bus).find? Board.qualifies with
        | some board => .ok board
        | none => .error (if boardsOn bus = [] then .noDevice else .noInterface)) ∧
      Opens (opened (boardsOn bus)) host (find bus host).2 := by
  obtain ⟨hresult, hopens⟩ := openFirst?_spec (boardsOn bus) host
  have hfind : find bus host = (openFirst? (boardsOn bus) >>= fun found =>
      match found with
      | some board => pure board
      | none => .fail (if boardsOn bus = [] then .noDevice else .noInterface)) host := by
    simp only [find, devices, Attempt.bind_apply, unlessRefused, h, Attempt.pure_apply]
    rfl
  rw [hfind, Attempt.bind_apply]
  rcases hfirst : openFirst? (boardsOn bus) host with ⟨result, host'⟩
  rw [hfirst] at hresult hopens
  obtain rfl : result = .ok ((boardsOn bus).find? Board.qualifies) := hresult
  cases (boardsOn bus).find? Board.qualifies with
  | some board => exact ⟨rfl, hopens⟩
  | none => exact ⟨rfl, hopens⟩

/-- **However the search ends, it has opened boards and done nothing else**; and the board that it
finds is on the bus, qualifies, and was opened last. -/
theorem exists_opens_find (bus : Bus) (host : Host) :
    ∃ boards, Opens boards host (find bus host).2 ∧
      ∀ board, (find bus host).1 = .ok board →
        board ∈ boardsOn bus ∧ board.qualifies = true ∧ boards.getLast? = some board := by
  cases hlisted : bus.listRefusal with
  | some text =>
    rw [find_of_listRefusal hlisted]
    exact ⟨[], ⟨rfl, (List.append_nil _).symm⟩, nofun⟩
  | none =>
    obtain ⟨hresult, hopens⟩ := find_of_listed hlisted host
    refine ⟨_, hopens, fun board hboard => ?_⟩
    rw [hresult] at hboard
    cases hfound : (boardsOn bus).find? Board.qualifies with
    | none =>
      rw [hfound] at hboard
      cases hboard
    | some found =>
      rw [hfound] at hboard
      obtain rfl := Except.ok.inj hboard
      exact ⟨List.mem_of_find?_eq_some hfound, List.find?_some hfound, getLast?_opened hfound⟩

end Find

end PicoLoader.Reboot
