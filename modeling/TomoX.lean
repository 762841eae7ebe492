import TomoX.Impl.Bytes
import TomoX.Impl.Rlp
import TomoX.Impl.Dump
import TomoX.Spec.Dump
import TomoX.Spec.Book
import TomoX.Proof.Bytes
import TomoX.Proof.Dump
import TomoX.Proof.OrderVolume
import TomoX.Proof.Rlp
import TomoX.Proof.Book
import TomoX.Proof.Messages
