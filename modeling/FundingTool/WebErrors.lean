import FundingTool.Models

/-!
# Web error codes (`web/errors.py`)
-/

namespace FundingTool

inductive WebCode
  | webAuthRequired | webAuthLocked | csrfMismatch
  | validationError | rangeTooLarge | unknownSymbol
  | exchangeAuthError | exchangeRateLimit | networkError
  | exchangeError | serverError
deriving DecidableEq, Repr

structure WebError where
  code : WebCode
  httpStatus : Nat
  message : String
  field : Option String
  errorId : Option String
deriving DecidableEq, Repr

/-- What a coroutine may end with instead of a value. -/
inductive BaseException
  | core (e : FundingToolError)
  /-- Any other subclass of `Exception`. -/
  | other (type message : String)
deriving DecidableEq, Repr

/-- `isinstance(e, Exception)`: `CancelledError` derives from `BaseException` alone. -/
def BaseException.isException : BaseException → Bool
  | .core .cancelled => false
  | _ => true

/-- `map_core_exception`; `error_id` is the `uuid4` drawn for an unexpected exception. -/
def mapCoreException (errorId : String) : BaseException → WebError
  | .core (.unknownSymbol _) => ⟨.unknownSymbol, 404, "币安没有这个合约，请检查拼写", none, none⟩
  | .core (.validation _) => ⟨.validationError, 400, "输入参数有问题", none, none⟩
  | .core (.authentication _) =>
      ⟨.exchangeAuthError, 502, "Binance 接口拒绝了请求，请检查账户", none, none⟩
  | .core (.rateLimit _) => ⟨.exchangeRateLimit, 502, "币安限流，请稍后重试", none, none⟩
  | .core (.network _) => ⟨.networkError, 502, "网络异常", none, none⟩
  | .core (.exchange _) => ⟨.exchangeError, 502, "币安接口异常", none, none⟩
  | .core (.missingMarkPrice ..) => ⟨.exchangeError, 502, "币安接口异常", none, none⟩
  | _ => ⟨.serverError, 500, "服务器错误（已记录）", none, some errorId⟩

end FundingTool
