import Socks.Main
import Socks.Proofs.AuthenticationGate
import Socks.Proofs.ConnectHandOver
import Socks.Proofs.ControlOutput
import Socks.Proofs.RelayIntegrity
import Socks.Proofs.BindProtocol
import Socks.Proofs.AssociationOwner
import Socks.Proofs.AssociationLifetime
import Socks.Proofs.Segmentation
import Socks.Proofs.HandshakeDeadline
import Socks.Proofs.WriteFailure
import Socks.Proofs.VersionParity
import Socks.Proofs.AddressCodec
import Socks.Proofs.DatagramCodec
import Socks.Proofs.RequestGrammar
import Socks.Proofs.RequestNormalForm
import Socks.Proofs.RequestFaults
import Socks.Proofs.ConnectOutcome
import Socks.Proofs.DatagramForwarding
import Socks.Proofs.DatagramWrapping
import Socks.Proofs.PasswordExchange
import Socks.Proofs.MethodExchange
import Socks.Proofs.DroppedDatagrams
import Socks.Proofs.BindRelay
import Socks.Proofs.SelfDelimiting
import Socks.Proofs.CommandByte
import Socks.Proofs.ReplyCodec
import Socks.Proofs.DatagramFaults
import Socks.Proofs.ZeroTerminated
import Socks.Proofs.ConfigLoading
