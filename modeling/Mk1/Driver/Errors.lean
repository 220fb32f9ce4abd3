import Mk1.Primitives.Fees

/-!
# Errors of batch proposals

The errors of `batch_submitter/errors.rs` and what the driver reads from their
messages. Texts are lists of characters here, and `toLowercase` lowers the ASCII
letters, the only ones in the messages that are looked for.
-/

namespace Mk1

/-- The error message for blob gas that is too low. -/
def BLOB_GAS_TOO_LOW_ERROR : String := "max fee per blob gas less than block blob gas fee"

/-- The error message for a max fee per gas that is too low. -/
def MAX_FEE_PER_GAS_TOO_LOW_ERROR : String := "max fee per gas less than block base fee"

/-- The error message for a nonce that has been used. -/
def NONCE_TOO_LOW_ERROR : String := "nonce too low"

/-- `str::to_lowercase`. -/
def toLowercase (text : List Char) : List Char := text.map Char.toLower

/-- Whether a text contains a message. -/
def containsMessage (text : List Char) (message : String) : Bool := message.toList <:+: text

/-- An error of a call of the node: an error response with its message, or another one. -/
inductive RpcError where
  | errorResp (message : String)
  | other
  deriving DecidableEq, Repr

/-- An error of the inbox contract: that we are not the preconfer or not the operator, or another
one. -/
inductive TaikoInboxError where
  | notPreconfer
  | notTheOperator
  | other
  deriving DecidableEq, Repr

/-- An error of one submission. -/
inductive RetryBatchSubmissionError where
  | rpcError (e : RpcError)
  | taikoInbox (e : TaikoInboxError)
  | unknownSelector
  | feesTooHigh (got max : Nat)
  deriving DecidableEq, Repr

/-- Whether the error says that we may not propose. -/
def RetryBatchSubmissionError.matchesNotPreconfer : RetryBatchSubmissionError → Bool
  | .taikoInbox .notPreconfer | .taikoInbox .notTheOperator => true
  | _ => false

/-- An error of a batch proposal. -/
inductive BatchProposalError where
  | zlib
  | blobSidecar
  | rpcError (e : RpcError)
  | deadlineReached
  | batchRetryError (e : RetryBatchSubmissionError)
  | noHead
  | reverted (hash : B256)
  deriving DecidableEq, Repr

namespace BatchProposalError

/-- Whether the error says that we may not propose. -/
def matchesNotPreconfer : BatchProposalError → Bool
  | .batchRetryError e => e.matchesNotPreconfer
  | _ => false

/-- Whether a submission was answered with the message that its nonce was too low. -/
def matchesNonceTooLow : BatchProposalError → Bool
  | .batchRetryError (.rpcError (.errorResp message)) =>
      containsMessage (toLowercase message.toList) NONCE_TOO_LOW_ERROR
  | _ => false

end BatchProposalError

/-- `str::trim`. -/
def trim (text : List Char) : List Char :=
  ((text.dropWhile Char.isWhitespace).reverse.dropWhile Char.isWhitespace).reverse

/-- What follows the first occurrence of a message in a text. -/
def textAfter (message : List Char) : List Char → Option (List Char)
  | [] => if message.isEmpty then some [] else none
  | first :: rest =>
      if message.isPrefixOf (first :: rest) then some ((first :: rest).drop message.length)
      else textAfter message rest

/-- `str::parse::<u128>` on a text of ASCII digits. -/
def parseU128 (digits : List Char) : Option Nat :=
  let value := digits.foldl (fun value digit => 10 * value + (digit.toNat - '0'.toNat)) 0
  if digits.isEmpty || u128Max < value then none else some value

/-- Extract the base fee from an error message like `MAX_FEE_PER_GAS_TOO_LOW_ERROR`. -/
def extractBaseFeeFromErr (err : List Char) : Option Nat := do
  let err := toLowercase (trim err)
  let rest ← textAfter "basefee: ".toList err
  parseU128 (rest.takeWhile Char.isDigit)

example : extractBaseFeeFromErr
    "max fee per gas less than block base fee: baseFee: 64546698".toList = some 64546698 := by
  decide

example : extractBaseFeeFromErr "max fee per gas less than block base fee: baseFee: nil".toList =
    none := by decide

/-- The receipt of a proposal transaction: its hash and whether it succeeded. -/
structure TransactionReceipt where
  transactionHash : B256
  status : Bool
  deriving DecidableEq, Repr

/-- The result of a batch proposal. -/
abbrev BatchResult := Except BatchProposalError TransactionReceipt

end Mk1
