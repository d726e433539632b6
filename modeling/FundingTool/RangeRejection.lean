import FundingTool.RangeRoutes

/-!
# Which time ranges are rejected

A range that is not of two aware datetimes, in order and short enough should be rejected as the
client's error, without a request to the exchange.  The routes subtract the two datetimes
before anyone asks whether they are aware, and a naive and an aware one cannot be subtracted.
-/

namespace FundingTool.RangeRoutes

open FundingTool.Backtest FundingTool.Interaction FundingTool.AccountHistory

/-! ## 1. Ranges -/

/-- Both datetimes have a timezone, or neither has. -/
def SameKind : DateTime → DateTime → Prop
  | .aware _, .aware _ => True
  | .naive _, .naive _ => True
  | _, _ => False

/-- A range that the services may work on. -/
def ValidRange (maxRangeDays : Nat) (start stop : DateTime) : Prop :=
  ∃ first last, start = .aware first ∧ stop = .aware last ∧ first < last ∧
    last - first ≤ maxRangeDays * dayLength

def TooLong (maxRangeDays : Nat) (start stop : DateTime) : Prop :=
  ∃ span, subtract stop start = .ok span ∧ maxRangeDays * dayLength < span

/-- The exchange is asked for a valid range only, and any other ends in one of the two errors
    that blame the request. -/
def Rejects (maxRangeDays : Nat) (start stop : DateTime) (asked : List ExchangeOp)
    (code : Option WebCode) : Prop :=
  (asked ≠ [] → ValidRange maxRangeDays start stop) ∧
    (¬ ValidRange maxRangeDays start stop →
      code = some .validationError ∨ code = some .rangeTooLarge)

/-- The error code of a response. -/
def responseCode {α : Type} (errorId : String) : Except RouteException α → Option WebCode
  | .error e => some (e.reply errorId).code
  | .ok _ => none

/-- The error code of a response, or of the task it has started. -/
def taskCode {D : Type} (errorId : String) :
    Except RouteException (Snapshot (HistoryResult D)) → Option WebCode
  | .error e => some (e.reply errorId).code
  | .ok snapshot => snapshot.error.map TaskError.code

/-- **What a range can be**, with what the first check and the services' own make of it. -/
theorem range_cases (maxRangeDays : Nat) (start stop : DateTime) :
    (¬ SameKind start stop ∧ ¬ ValidRange maxRangeDays start stop ∧
        ∃ e, checkRange maxRangeDays start stop = .error (.raised (.other "TypeError" e))) ∨
      (SameKind start stop ∧ ¬ ValidRange maxRangeDays start stop ∧
        TooLong maxRangeDays start stop ∧
        checkRange maxRangeDays start stop = .error (.http (rangeTooLarge maxRangeDays))) ∨
      (SameKind start stop ∧ ¬ ValidRange maxRangeDays start stop ∧
        ¬ TooLong maxRangeDays start stop ∧ checkRange maxRangeDays start stop = .ok () ∧
        ∃ reason, validateTimes start stop = .error (.validation reason) ∧
          validate start stop = .error reason) ∨
      SameKind start stop ∧ ValidRange maxRangeDays start stop ∧
        checkRange maxRangeDays start stop = .ok () := by
  rcases start with first | first <;> rcases stop with last | last
  · by_cases hlong : maxRangeDays * dayLength < last - first
    · refine Or.inr (Or.inl ⟨trivial, ?_, ⟨last - first, rfl, hlong⟩, if_pos hlong⟩)
      rintro ⟨_, _, ⟨⟩, ⟨⟩, -, hshort⟩
      exact absurd hlong (Int.not_lt.mpr hshort)
    · by_cases horder : first < last
      · exact Or.inr (Or.inr (Or.inr ⟨trivial,
          ⟨first, last, rfl, rfl, horder, Int.not_lt.mp hlong⟩, if_neg hlong⟩))
      · refine Or.inr (Or.inr (Or.inl ⟨trivial, ?_, ?_, if_neg hlong,
          .notBefore first last, if_neg horder, if_neg horder⟩))
        · rintro ⟨_, _, ⟨⟩, ⟨⟩, hfirst, -⟩
          exact horder hfirst
        · rintro ⟨_, ⟨⟩, hspan⟩
          exact hlong hspan
  · refine Or.inl ⟨fun h => h, ?_, _, rfl⟩
    rintro ⟨_, _, -, ⟨⟩, -, -⟩
  · refine Or.inl ⟨fun h => h, ?_, _, rfl⟩
    rintro ⟨_, _, ⟨⟩, -, -, -⟩
  · have hinvalid : ¬ ValidRange maxRangeDays (.naive first) (.naive last) := by
      rintro ⟨_, _, ⟨⟩, -, -, -⟩
    by_cases hlong : maxRangeDays * dayLength < last - first
    · exact Or.inr (Or.inl ⟨trivial, hinvalid, ⟨last - first, rfl, hlong⟩, if_pos hlong⟩)
    · refine Or.inr (Or.inr (Or.inl ⟨trivial, hinvalid, ?_, if_neg hlong, .notAware, rfl, rfl⟩))
      rintro ⟨_, ⟨⟩, hspan⟩
      exact hlong hspan

/-! ## 2. The services -/

variable {D : Type} (A : Arithmetic D) (print : Printer) (exchange : Exchange D)

theorem isTimeout_validationError (reason : Invalid) :
    isTimeout (validationError print reason) = false := by
  cases reason <;> rfl

theorem mapCoreException_validationError (errorId : String) (reason : Invalid) :
    (mapCoreException errorId (validationError print reason)).code = .validationError := by
  cases reason <;> rfl

theorem mapCoreException_ne_rangeTooLarge (errorId : String) (e : BaseException) :
    (mapCoreException errorId e).code ≠ .rangeTooLarge := by
  unfold mapCoreException
  split <;> exact fun h => by cases h

theorem run_backtest_refused {inp : BacktestInput D} {reason : Invalid}
    (h : validateTimes inp.start inp.stop = .error (.validation reason)) :
    (runBacktestService A print inp).run ask exchange [] =
      ([], .error (validationError print reason)) := by
  unfold runBacktestService
  rw [h]
  rfl

theorem run_history_refused {creds : ApiCredentials} {start stop : DateTime}
    {symbol : Option String} {reason : Invalid} (h : validate start stop = .error reason) :
    (runAccountHistory A print creds start stop symbol).run ask exchange [] =
      ([], .error (validationError print reason)) := by
  unfold runAccountHistory
  rw [h]
  rfl

/-! ## 3. The routes -/

/-- **A backtest is rejected as it should** exactly when its datetimes are of one kind. -/
theorem backtest_rejects_iff (errorId : String) (body : BacktestRequest D) :
    Rejects backtestMaxRangeDays body.start body.stop (backtest A print exchange body).1
        (responseCode errorId (backtest A print exchange body).2) ↔
      SameKind body.start body.stop := by
  unfold backtest
  rcases range_cases backtestMaxRangeDays body.start body.stop with
    ⟨hkind, hinvalid, e, hcheck⟩ | ⟨hkind, hinvalid, -, hcheck⟩ |
      ⟨hkind, hinvalid, -, hcheck, reason, htimes, -⟩ | ⟨hkind, hvalid, hcheck⟩
  · rw [hcheck]
    refine iff_of_false (fun h => ?_) hkind
    rcases h.2 hinvalid with hcode | hcode <;> cases hcode
  · rw [hcheck]
    exact iff_of_true ⟨fun hne => absurd rfl hne, fun _ => Or.inr rfl⟩ hkind
  · have hrun := @run_backtest_refused D A print exchange
      ⟨body.symbol, body.side, body.start, body.stop, body.sizeMode, body.size⟩ reason htimes
    rw [hcheck]
    simp only [hrun, isTimeout_validationError]
    refine iff_of_true ⟨fun hne => absurd rfl hne, fun _ => Or.inl ?_⟩ hkind
    exact congrArg some (mapCoreException_validationError print errorId reason)
  · exact iff_of_true ⟨fun _ => hvalid, fun hinvalid => absurd hvalid hinvalid⟩ hkind

/-- **A history is rejected as it should** exactly when its datetimes are of one kind and the
    account is found, or missed, for a range that only the service refuses. -/
theorem history_rejects_iff (getCredentials : String → Except BaseException ApiCredentials)
    (errorId : String) (created : Int) (body : HistoryRequest) :
    Rejects historyMaxRangeDays body.start body.stop
        (history A print exchange getCredentials errorId created body).1
        (taskCode errorId (history A print exchange getCredentials errorId created body).2) ↔
      SameKind body.start body.stop ∧
        (¬ ValidRange historyMaxRangeDays body.start body.stop →
          ¬ TooLong historyMaxRangeDays body.start body.stop →
          ∀ e, getCredentials body.accountName = .error e →
            (mapCoreException errorId e).code = .validationError ∨ isKeyError e = true) := by
  unfold history submitHistory
  rcases range_cases historyMaxRangeDays body.start body.stop with
    ⟨hkind, hinvalid, e, hcheck⟩ | ⟨hkind, hinvalid, hlong, hcheck⟩ |
      ⟨hkind, hinvalid, hshort, hcheck, reason, -, hrefused⟩ | ⟨hkind, hvalid, hcheck⟩
  · rw [hcheck]
    refine iff_of_false (fun h => ?_) fun h => hkind h.1
    rcases h.2 hinvalid with hcode | hcode <;> cases hcode
  · rw [hcheck]
    exact iff_of_true ⟨fun hne => absurd rfl hne, fun _ => Or.inr rfl⟩
      ⟨hkind, fun _ hnot => absurd hlong hnot⟩
  · rw [hcheck]
    rcases hstore : getCredentials body.accountName with e | creds
    · by_cases hkey : isKeyError e = true
      · simp only [hkey, if_true]
        refine iff_of_true ⟨fun hne => absurd rfl hne, fun _ => Or.inl rfl⟩
          ⟨hkind, fun _ _ e' he' => Or.inr ?_⟩
        cases he'
        exact hkey
      · simp only [if_neg hkey]
        constructor
        · rintro ⟨-, hcode⟩
          refine ⟨hkind, fun _ _ e' he' => Or.inl ?_⟩
          cases he'
          rcases hcode hinvalid with hcode | hcode
          · exact Option.some.inj hcode
          · exact absurd (Option.some.inj hcode) (mapCoreException_ne_rangeTooLarge errorId e)
        · rintro ⟨-, hblamed⟩
          refine ⟨fun hne => absurd rfl hne, fun _ => Or.inl ?_⟩
          rcases hblamed hinvalid hshort e rfl with hcode | hkey'
          · exact congrArg some hcode
          · exact absurd hkey' hkey
    · have hjob : job A print exchange creds body =
          ([], .raised (validationError print reason)) := by
        unfold job
        rw [run_history_refused A print exchange hrefused]
      simp only [hjob]
      refine iff_of_true ⟨fun hne => absurd rfl hne, fun _ => Or.inl ?_⟩
        ⟨hkind, fun _ _ e' he' => by cases he'⟩
      rcases reason <;> rfl
  · rw [hcheck]
    exact iff_of_true ⟨fun _ => hvalid, fun hinvalid => absurd hvalid hinvalid⟩
      ⟨hkind, fun hinvalid => absurd hvalid hinvalid⟩

/-- **Which requests both routes reject as they should.** -/
theorem ranges_rejected_iff (getCredentials : String → Except BaseException ApiCredentials)
    (errorId : String) (created : Int) :
    (∀ body : BacktestRequest D,
      Rejects backtestMaxRangeDays body.start body.stop (backtest A print exchange body).1
          (responseCode errorId (backtest A print exchange body).2) ↔
        SameKind body.start body.stop) ∧
      ∀ body : HistoryRequest,
        Rejects historyMaxRangeDays body.start body.stop
            (history A print exchange getCredentials errorId created body).1
            (taskCode errorId (history A print exchange getCredentials errorId created body).2) ↔
          SameKind body.start body.stop ∧
            (¬ ValidRange historyMaxRangeDays body.start body.stop →
              ¬ TooLong historyMaxRangeDays body.start body.stop →
              ∀ e, getCredentials body.accountName = .error e →
                (mapCoreException errorId e).code = .validationError ∨ isKeyError e = true) :=
  ⟨backtest_rejects_iff A print exchange errorId,
    history_rejects_iff A print exchange getCredentials errorId created⟩

/-- A range that begins with a timezone and ends without one: the client is told of a fault of
    the server, by either route. -/
theorem mixed_range_server_error :
    (backtest exact (fun _ => "") (paying [])
        ⟨"BTCUSDT", .long, .aware 0, .naive dayLength, .rateOnly, none⟩).1 = [] ∧
      responseCode "e1" (backtest exact (fun _ => "") (paying [])
        ⟨"BTCUSDT", .long, .aware 0, .naive dayLength, .rateOnly, none⟩).2 =
        some .serverError ∧
      taskCode "e1" (history exact (fun _ => "") (paying []) (fun _ => .ok ⟨"k", "s", none⟩) "e1" 0
        ⟨"main", .naive 0, .aware dayLength, none⟩).2 = some .serverError := by
  decide

end FundingTool.RangeRoutes
