/-!
# DOCA return codes and context states

The SDK is not part of the repository.  Its calls are parameters of the models,
and they answer with a `DocaStatus`.
-/

namespace DpuTest

/-- `doca_error_t`, as far as the programs tell its values apart. -/
inductive DocaStatus where
  /-- `DOCA_SUCCESS` -/
  | success
  /-- `DOCA_ERROR_IN_PROGRESS` -/
  | inProgress
  /-- `DOCA_ERROR_TIME_OUT` -/
  | timeOut
  | other (code : Nat)
  deriving DecidableEq

/-- `enum doca_ctx_states`. -/
inductive CtxState where
  | idle
  | starting
  | running
  | stopping

end DpuTest
